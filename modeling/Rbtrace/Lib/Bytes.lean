import Mathlib.Data.List.TakeDrop
import Mathlib.Data.Nat.Digits.Defs

/-!
# Bytes, little-endian numbers, C strings, and files that are written in place

Four small theories about lists, none of which knows what the bytes mean.

* `LittleEndian` — fixed-width unsigned numbers, least significant byte first.
* `CString` — strings that end at their first NUL.
* `Splice` — a positioned write into a list: overwriting inside it, appending at
  its end, and filling the gap when it starts beyond the end.
* `Blocks` — a list of values laid out with a fixed width, so that positions that
  are multiples of the width cut between values.
-/

universe u v

/-! ## Little-endian numbers -/

namespace LittleEndian

/-- The `w` low bytes of `n`, least significant first. -/
def encode : Nat → Nat → List UInt8
  | 0, _ => []
  | w + 1, n => UInt8.ofNat n :: encode w (n / 256)

/-- The number with these bytes. -/
def decode (l : List UInt8) : Nat := Nat.ofDigits 256 (l.map UInt8.toNat)

@[simp] theorem length_encode (w n : Nat) : (encode w n).length = w := by
  induction w generalizing n with
  | zero => rfl
  | succ w ih => rw [encode, List.length_cons, ih]

theorem decode_cons (b : UInt8) (l : List UInt8) : decode (b :: l) = b.toNat + 256 * decode l := by
  rw [decode, List.map_cons, Nat.ofDigits_cons]
  rfl

/-- Reading back `w` bytes gives the number modulo `256 ^ w`. -/
theorem decode_encode (w n : Nat) : decode (encode w n) = n % 256 ^ w := by
  induction w generalizing n with
  | zero => rw [encode, pow_zero, Nat.mod_one]; rfl
  | succ w ih =>
      have hb : (UInt8.ofNat n).toNat = n % 256 := UInt8.toNat_ofNat'
      rw [encode, decode_cons, ih, hb, pow_succ', Nat.mod_mul]

/-! A structure in memory is a concatenation of such numbers; `read` is the access to
one of its fields, and the two lemmas below walk it past the fields before. -/

/-- The number in the `w` bytes at offset `off`. -/
def read (l : List UInt8) (off w : Nat) : Nat := decode ((l.drop off).take w)

/-- A field behind the first one is a field of the rest. -/
theorem read_encode_append_of_le {w' n off : Nat} (h : w' ≤ off) (l : List UInt8) (w : Nat) :
    read (encode w' n ++ l) off w = read l (off - w') w := by
  rw [read, read, List.drop_append, List.drop_eq_nil_of_le (by simpa using h), List.nil_append,
    length_encode]

/-- The first field reads back as what was stored, up to its width. -/
theorem read_encode_append_zero (w n : Nat) (l : List UInt8) :
    read (encode w n ++ l) 0 w = n % 256 ^ w := by
  rw [read, List.drop_zero, List.take_left' (length_encode w n), decode_encode]

end LittleEndian

/-! ## C strings -/

namespace CString

/-- The C string at offset `off` of some memory, without its NUL; `none` if there is no NUL
before the memory ends. -/
def read (l : List UInt8) (off : Nat) : Option (List UInt8) :=
  if 0 ∈ l.drop off then some ((l.drop off).takeWhile (· ≠ 0)) else none

/-- `strcmp(l, s) == 0`: the bytes of `l` are compared with those of the string `s` and its
NUL, one by one. -/
def same : List UInt8 → List UInt8 → Bool
  | b :: _, [] => b = 0
  | b :: l, c :: s => b = c && same l s
  | [], _ => false

theorem read_isSome_iff (l : List UInt8) (off : Nat) :
    (read l off).isSome ↔ 0 ∈ l.drop off := by
  unfold read
  split <;> simp_all

/-- A string is read back from where it stands. -/
theorem read_append {s : List UInt8} (hs : 0 ∉ s) (l r : List UInt8) :
    read (l ++ (s ++ 0 :: r)) l.length = some s := by
  have htake : (s ++ 0 :: r).takeWhile (· ≠ 0) = s := by
    rw [List.takeWhile_append_of_pos, List.takeWhile_cons_of_neg, List.append_nil]
    · simp
    · intro b hb
      have hb0 : b ≠ 0 := by
        rintro rfl
        exact hs hb
      simpa using hb0
  rw [read, List.drop_left, if_pos (by simp), htake]

/-- Two strings are the same if the bytes are, up to and with the NUL. -/
theorem same_iff (l s : List UInt8) : same l s ↔ l.take (s.length + 1) = s ++ [0] := by
  induction s generalizing l with
  | nil => cases l <;> simp [same]
  | cons c s ih =>
      cases l with
      | nil => simp [same]
      | cons b l => simp [same, ih]

end CString

/-! ## Positioned writes -/

namespace List

variable {α : Type u}

/-- The list `l` after `b` has been written at position `off`; a gap between the
end of `l` and `off` is filled with `z`. -/
def splice (z : α) (l : List α) (off : Nat) (b : List α) : List α :=
  l.takeD off z ++ b ++ l.drop (off + b.length)

@[simp] theorem length_splice (z : α) (l : List α) (off : Nat) (b : List α) :
    (l.splice z off b).length = max l.length (off + b.length) := by
  simp only [splice, length_append, takeD_length, length_drop]
  omega

/-- A write at the end appends. -/
theorem splice_length (z : α) (l b : List α) : l.splice z l.length b = l ++ b := by
  rw [splice, takeD_eq_take z le_rfl, take_length, drop_eq_nil_of_le (by omega), append_nil]

/-- A write inside the list leaves what is before and after it. -/
theorem splice_of_le (z : α) {l b : List α} {off : Nat} (h : off ≤ l.length) :
    l.splice z off b = l.take off ++ b ++ l.drop (off + b.length) := by
  rw [splice, takeD_eq_take z h]

/-- Padding reads as `z`. -/
theorem getElem?_takeD (z : α) {l : List α} {n i : Nat} (h : i < n) :
    (l.takeD n z)[i]? = some (l[i]?.getD z) := by
  induction n generalizing l i with
  | zero => exact absurd h (Nat.not_lt_zero i)
  | succ n ih =>
      rw [takeD_succ]
      cases i with
      | zero => rw [getElem?_cons_zero, head?_eq_getElem?]
      | succ i => rw [getElem?_cons_succ, ih (Nat.lt_of_succ_lt_succ h), getElem?_tail]

/-- Before a write the list is what it was, and the gap reads as `z`. -/
theorem getElem?_splice_of_lt (z : α) {l b : List α} {off i : Nat} (h : i < off) :
    (l.splice z off b)[i]? = some (l[i]?.getD z) := by
  rw [splice, append_assoc, getElem?_append_left (by rwa [takeD_length]), getElem?_takeD z h]

/-- Behind a write the list is what it was. -/
theorem getElem?_splice_of_le (z : α) {l b : List α} {off i : Nat} (h : off + b.length ≤ i) :
    (l.splice z off b)[i]? = l[i]? := by
  have hlen : (l.takeD off z ++ b).length = off + b.length := by rw [length_append, takeD_length]
  rw [splice, getElem?_append_right (by rwa [hlen]), hlen, getElem?_drop, Nat.add_sub_cancel' h]

/-- Padding behind a common head pads the tail. -/
theorem takeD_append (z : α) (h l : List α) (k : Nat) :
    (h ++ l).takeD (h.length + k) z = h ++ l.takeD k z := by
  induction h with
  | nil => simp
  | cons x h ih =>
      rw [length_cons, show h.length + 1 + k = (h.length + k) + 1 by omega, takeD_succ]
      simp [ih]

/-- A write behind a common head acts on the tail. -/
theorem splice_append (z : α) (h l b : List α) (off : Nat) :
    (h ++ l).splice z (h.length + off) b = h ++ l.splice z off b := by
  rw [splice, splice, takeD_append, Nat.add_assoc, drop_append, drop_eq_nil_of_le (by omega)]
  simp

/-- Two writes one right after the other are one write. -/
theorem splice_splice (z : α) (l b c : List α) (off : Nat) :
    (l.splice z off b).splice z (off + b.length) c = l.splice z off (b ++ c) := by
  have hl : (l.takeD off z ++ b).length = off + b.length := by simp
  have hdrop : (l.drop (off + b.length)).drop c.length = l.drop (off + (b ++ c).length) := by
    rw [drop_drop, length_append, Nat.add_assoc]
  rw [splice, splice, ← hl, takeD_left]
  conv_lhs => rw [hl]
  rw [← hl, drop_append]
  simp only [hl]
  rw [drop_eq_nil_of_le (by simp), nil_append,
    show off + b.length + c.length - (off + b.length) = c.length by omega, hdrop, splice]
  simp

/-- Replacing the head of a list by one of the same length. -/
theorem splice_zero_append (z : α) (h h' l : List α) (hl : h'.length = h.length) :
    (h ++ l).splice z 0 h' = h' ++ l := by
  simp [splice, hl]

end List

/-! ## Values laid out with a fixed width -/

namespace Blocks

variable {α : Type u} {β : Type v} {enc : α → List β} {c : Nat}

/-- The total length of a layout. -/
theorem length_flatMap (hc : ∀ a, (enc a).length = c) (l : List α) :
    (l.flatMap enc).length = c * l.length := by
  induction l with
  | nil => simp
  | cons a l ih => rw [List.flatMap_cons, List.length_append, hc, ih, List.length_cons]; ring

theorem drop_flatMap (hc : ∀ a, (enc a).length = c) (l : List α) (i : Nat) :
    (l.flatMap enc).drop (c * i) = (l.drop i).flatMap enc := by
  induction l generalizing i with
  | nil => simp
  | cons a l ih =>
      cases i with
      | zero => simp
      | succ i =>
          rw [List.flatMap_cons, List.drop_succ_cons, ← ih, Nat.mul_succ, Nat.add_comm,
            ← List.drop_drop, ← hc a, List.drop_left]

theorem take_flatMap (hc : ∀ a, (enc a).length = c) (l : List α) (i : Nat) :
    (l.flatMap enc).take (c * i) = (l.take i).flatMap enc := by
  induction l generalizing i with
  | nil => simp
  | cons a l ih =>
      cases i with
      | zero => simp
      | succ i =>
          rw [List.flatMap_cons, List.take_succ_cons, List.flatMap_cons, ← ih, Nat.mul_succ,
            Nat.add_comm, ← hc a, List.take_length_add_append]

/-- Writing whole values at a value boundary inside a layout, or at its end, is
writing them in the list of values. -/
theorem splice_flatMap (hc : ∀ a, (enc a).length = c) (z : β) (z' : α) {l : List α} {i : Nat}
    (h : i ≤ l.length) (b : List α) :
    (l.flatMap enc).splice z (c * i) (b.flatMap enc) = (l.splice z' i b).flatMap enc := by
  have hi : c * i ≤ (l.flatMap enc).length := by
    rw [length_flatMap hc]
    exact Nat.mul_le_mul_left c h
  rw [List.splice_of_le z hi, List.splice_of_le z' h, length_flatMap hc, ← Nat.mul_add,
    take_flatMap hc, drop_flatMap hc, List.flatMap_append, List.flatMap_append]

end Blocks
