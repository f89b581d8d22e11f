import Mathlib.Data.List.Basic
import Mathlib.Data.List.Perm.Basic

/-!
# Double buffering

What a double-buffered producer/consumer pair is for, over any type of items.  The
producer fills the *active* buffer; when it is full and nothing waits for the
consumer it becomes the *pending* one, and when something does wait it is thrown
away and counted as an overrun.  The consumer drains the pending buffer.

`stored` is everything that is in the two buffers, oldest first.  Two laws say what
can happen to it: a push appends to it unless it discards (`stored_push`), and in
every case nothing disappears but what is discarded (`stored_push_perm`).

`Logged` keeps, beside the buffers, what was consumed and what was discarded.
-/

universe u v

/-- A pair of buffers. -/
structure DoubleBuffer (α : Type u) where
  /-- The buffer being filled. -/
  active : List α
  /-- The filled buffer that waits for the consumer. -/
  pending : Option (List α)
  /-- How many filled buffers were discarded while it waited. -/
  overruns : Nat

namespace DoubleBuffer

variable {α : Type u} {cap : Nat}

/-- Everything in the two buffers, oldest first. -/
def stored (b : DoubleBuffer α) : List α := b.pending.getD [] ++ b.active

/-- Put one item into buffers of capacity `cap`. -/
def push (cap : Nat) (b : DoubleBuffer α) (x : α) : DoubleBuffer α :=
  if b.active.length < cap then { b with active := b.active ++ [x] }
  else match b.pending with
    | none => { active := [x], pending := some b.active, overruns := 0 }
    | some p => { active := [x], pending := some p, overruns := b.overruns + 1 }

/-- What a push throws away. -/
def discards (cap : Nat) (b : DoubleBuffer α) : List α :=
  if b.active.length < cap then []
  else match b.pending with
    | none => []
    | some _ => b.active

/-- Give the pending buffer to the consumer. -/
def drain (b : DoubleBuffer α) : DoubleBuffer α :=
  { active := b.active, pending := none, overruns := 0 }

theorem push_of_lt {b : DoubleBuffer α} (h : b.active.length < cap) (x : α) :
    b.push cap x = { b with active := b.active ++ [x] } := if_pos h

theorem push_of_pending_eq_none {b : DoubleBuffer α} (h : cap ≤ b.active.length)
    (hp : b.pending = none) (x : α) :
    b.push cap x = { active := [x], pending := some b.active, overruns := 0 } := by
  rw [push, if_neg (Nat.not_lt.2 h), hp]

theorem push_of_pending_eq_some {b : DoubleBuffer α} {p : List α} (h : cap ≤ b.active.length)
    (hp : b.pending = some p) (x : α) :
    b.push cap x = { active := [x], pending := some p, overruns := b.overruns + 1 } := by
  rw [push, if_neg (Nat.not_lt.2 h), hp]

/-- Nothing but the discarded buffer disappears in a push. -/
theorem stored_push_perm (cap : Nat) (b : DoubleBuffer α) (x : α) :
    ((b.push cap x).stored ++ b.discards cap).Perm (b.stored ++ [x]) := by
  unfold push discards
  split
  · simp [stored]
  · cases hp : b.pending with
    | none => simp [stored, hp]
    | some p =>
        simp only [stored, hp, Option.getD_some, List.append_assoc]
        exact (List.perm_append_left_iff p).2 List.perm_append_comm

/-- **First in, first out.**  A push that discards nothing appends its item. -/
theorem stored_push {b : DoubleBuffer α} (h : b.discards cap = []) (hcap : 0 < cap) (x : α) :
    (b.push cap x).stored = b.stored ++ [x] := by
  unfold push
  unfold discards at h
  split at h
  · rename_i hlt
    simp [stored, if_pos hlt]
  · rename_i hlt
    rw [if_neg hlt]
    cases hp : b.pending with
    | none => simp [stored, hp]
    | some p =>
        rw [hp] at h
        have hnil : b.active = [] := h
        rw [hnil] at hlt
        exact absurd hcap hlt

/-! ## Items with more to them -/

variable {β : Type v}

/-- Change the items. -/
def map (f : α → β) (b : DoubleBuffer α) : DoubleBuffer β where
  active := b.active.map f
  pending := b.pending.map (List.map f)
  overruns := b.overruns

/-- The buffers do not look at their items. -/
theorem map_push (f : α → β) (b : DoubleBuffer α) (x : α) :
    (b.push cap x).map f = (b.map f).push cap (f x) := by
  unfold push
  rw [show (b.map f).active.length = b.active.length from List.length_map _]
  split
  · simp only [map, List.map_append, List.map_cons, List.map_nil]
  · rcases b with ⟨active, _ | p, overruns⟩ <;> rfl

theorem map_drain (f : α → β) (b : DoubleBuffer α) : b.drain.map f = (b.map f).drain := rfl

/-! ## Histories -/

/-- A double buffer with the items that have left it. -/
structure Logged (α : Type u) where
  buffers : DoubleBuffer α := ⟨[], none, 0⟩
  /-- What the consumer was given. -/
  written : List α := []
  /-- What was discarded. -/
  discarded : List α := []

namespace Logged

open scoped List

/-- Put one item in. -/
def put (cap : Nat) (l : Logged α) (x : α) : Logged α where
  buffers := l.buffers.push cap x
  written := l.written
  discarded := l.discarded ++ l.buffers.discards cap

/-- Give the pending buffer to the consumer. -/
def flush (l : Logged α) : Logged α where
  buffers := l.buffers.drain
  written := l.written ++ l.buffers.pending.getD []
  discarded := l.discarded

/-- Every item that was put in. -/
def items (l : Logged α) : List α := l.written ++ l.buffers.stored ++ l.discarded

/-- **Nothing gets lost in a put**: the item is there, and the others are. -/
theorem items_put (cap : Nat) (l : Logged α) (x : α) :
    (l.put cap x).items.Perm (l.items ++ [x]) := by
  have hpush := (stored_push_perm cap l.buffers x).append_left l.written
  calc
    (l.put cap x).items
      = l.written ++ (l.buffers.push cap x).stored ++ (l.discarded ++ l.buffers.discards cap) := rfl
    _ = l.written ++ ((l.buffers.push cap x).stored ++ (l.discarded ++ l.buffers.discards cap)) :=
        List.append_assoc ..
    _ ~ l.written ++ ((l.buffers.push cap x).stored ++ (l.buffers.discards cap ++ l.discarded)) :=
        (List.perm_append_comm.append_left _).append_left _
    _ = l.written ++ ((l.buffers.push cap x).stored ++ l.buffers.discards cap) ++ l.discarded := by
        simp only [List.append_assoc]
    _ ~ l.written ++ (l.buffers.stored ++ [x]) ++ l.discarded := hpush.append_right _
    _ = (l.written ++ l.buffers.stored) ++ ([x] ++ l.discarded) := by simp only [List.append_assoc]
    _ ~ (l.written ++ l.buffers.stored) ++ (l.discarded ++ [x]) :=
        List.perm_append_comm.append_left _
    _ = l.items ++ [x] := (List.append_assoc ..).symm

/-- The consumer takes nothing away. -/
theorem items_flush (l : Logged α) : l.flush.items = l.items := by
  change l.written ++ l.buffers.pending.getD [] ++ l.buffers.drain.stored ++ l.discarded = _
  rw [List.append_assoc l.written]
  rfl

/-! ## Reports of what was discarded -/

variable {cap n : Nat} {p : α → Bool} {l l' : Logged α}

/-- What the consumer does when its turn comes: nothing, or it takes the pending buffer, and if
buffers have been discarded meanwhile it puts in an item of its own, which says so. -/
inductive Turn (cap : Nat) (p : α → Bool) (l : Logged α) : Logged α → Prop
  | idle : Turn cap p l l
  | flush : Turn cap p l l.flush
  | report (x : α) (hx : p x = false) (h : 0 < l.buffers.overruns) :
      Turn cap p l (l.flush.put cap x)

/-- `n` items were put in, and they are told from the consumer's own by `p`. -/
structure Tallied (p : α → Bool) (n : Nat) (l : Logged α) : Prop where
  count : l.items.countP p = n
  /-- There is room for a report if one is due. -/
  length_le : (l.written ++ l.buffers.stored).length + min l.buffers.overruns 1 ≤ n
  overruns_le : l.buffers.overruns ≤ n
  clean : l.discarded = [] → l.buffers.overruns = 0
  /-- Not only reports have been discarded. -/
  lossy : l.discarded ≠ [] → ∃ x ∈ l.discarded, p x

theorem Tallied.init (p : α → Bool) : Tallied p 0 ({} : Logged α) where
  count := rfl
  length_le := Nat.le_refl 0
  overruns_le := Nat.le_refl 0
  clean _ := rfl
  lossy h := absurd rfl h

/-- Nothing was discarded exactly if all items are still there. -/
theorem Tallied.countP_eq_iff (h : l.Tallied p n) :
    (l.written ++ l.buffers.stored).countP p = n ↔ l.discarded = [] := by
  have hcount := h.count
  rw [items, List.countP_append] at hcount
  constructor
  · intro hall
    by_contra hne
    have hpos := List.countP_pos_iff.2 (h.lossy hne)
    omega
  · intro hnil
    rwa [hnil, List.countP_nil, Nat.add_zero] at hcount

/-- As long as nothing was discarded, there are no reports. -/
theorem Tallied.all_of_clean (h : l.Tallied p n) (hnil : l.discarded = []) :
    ∀ x ∈ l.written ++ l.buffers.stored, p x := by
  have hcount := h.countP_eq_iff.2 hnil
  have hlen := h.length_le
  exact List.countP_eq_length.1 (Nat.le_antisymm List.countP_le_length (by omega))

/-- **An item is put in.** -/
theorem Tallied.put (h : l.Tallied p n) (hcap : 0 < cap) {x : α} (hx : p x) :
    (l.put cap x).Tallied p (n + 1) := by
  have hitems := (l.items_put cap x).countP_eq p
  rw [List.countP_append, h.count, List.countP_singleton, if_pos hx] at hitems
  have hlen := h.length_le
  have hover := h.overruns_le
  rw [List.length_append] at hlen
  by_cases hroom : l.buffers.active.length < cap
  · have hkept : (l.put cap x).discarded = l.discarded := by
      rw [Logged.put, discards, if_pos hroom, List.append_nil]
    have hpush : (l.put cap x).buffers = _ := push_of_lt hroom x
    refine ⟨hitems, ?_, ?_, ?_, by rw [hkept]; exact h.lossy⟩
    · rw [hpush, List.length_append]
      simp only [stored, List.length_append, List.length_singleton] at hlen ⊢
      change l.written.length + _ + _ ≤ _
      omega
    · rw [hpush]
      exact Nat.le_trans hover (Nat.le_succ n)
    · rw [hkept, hpush]
      exact h.clean
  · cases hp : l.buffers.pending with
    | none =>
        -- the buffers are swapped
        have hkept : (l.put cap x).discarded = l.discarded := by
          rw [Logged.put, discards, if_neg hroom, hp, List.append_nil]
        have hpush : (l.put cap x).buffers = _ := push_of_pending_eq_none (Nat.not_lt.1 hroom) hp x
        refine ⟨hitems, ?_, ?_, ?_, by rw [hkept]; exact h.lossy⟩
        · rw [hpush, List.length_append]
          simp only [stored, hp, Option.getD_none, Option.getD_some, List.length_append,
            List.length_nil, List.length_singleton] at hlen ⊢
          change l.written.length + _ + _ ≤ _
          omega
        · rw [hpush]
          exact Nat.zero_le _
        · rw [hpush]
          exact fun _ ↦ rfl
    | some q =>
        -- the active buffer is thrown away, and it holds an item
        have hlost : (l.put cap x).discarded = l.discarded ++ l.buffers.active := by
          rw [Logged.put, discards, if_neg hroom, hp]
        have hpush : (l.put cap x).buffers = _ := push_of_pending_eq_some (Nat.not_lt.1 hroom) hp x
        have hne : l.buffers.active ≠ [] := List.ne_nil_of_length_pos (by omega)
        refine ⟨hitems, ?_, ?_, ?_, fun _ ↦ ?_⟩
        · rw [hpush, List.length_append]
          simp only [stored, hp, Option.getD_some, List.length_append, List.length_singleton]
            at hlen ⊢
          change l.written.length + _ + _ ≤ _
          omega
        · rw [hpush]
          exact Nat.succ_le_succ hover
        · rw [hlost]
          exact fun hnil ↦ absurd (List.append_eq_nil_iff.1 hnil).2 hne
        · rw [hlost]
          by_cases hnil : l.discarded = []
          · obtain ⟨y, hy⟩ := List.exists_mem_of_ne_nil _ hne
            refine ⟨y, List.mem_append_right _ hy, h.all_of_clean hnil y ?_⟩
            exact List.mem_append_right _ (List.mem_append_right _ hy)
          · obtain ⟨y, hy, hpy⟩ := h.lossy hnil
            exact ⟨y, List.mem_append_left _ hy, hpy⟩

/-- **The consumer takes its turn.** -/
theorem Tallied.turn (h : l.Tallied p n) (hturn : l.Turn cap p l') :
    l'.Tallied p n ∧ l'.discarded = l.discarded := by
  have hflush : l.flush.Tallied p n := by
    refine ⟨?_, ?_, Nat.zero_le _, fun _ ↦ rfl, h.lossy⟩
    · rw [items_flush]
      exact h.count
    · have hlen := h.length_le
      simp only [flush, drain, stored, List.length_append, Option.getD_none, List.length_nil]
        at hlen ⊢
      omega
  cases hturn with
  | idle => exact ⟨h, rfl⟩
  | flush => exact ⟨hflush, rfl⟩
  | report x hx hdue =>
      -- nothing is pending, so that the report is not discarded
      have hkept : (l.flush.put cap x).discarded = l.discarded := by
        rw [Logged.put, discards, flush, drain]
        split <;> rw [List.append_nil]
      have hover : (l.flush.put cap x).buffers.overruns = 0 := by
        rw [Logged.put, push, flush, drain]
        split <;> rfl
      have hlen : ((l.flush.put cap x).written ++ (l.flush.put cap x).buffers.stored).length =
          (l.written ++ l.buffers.stored).length + 1 := by
        have hperm := (l.flush.items_put cap x).length_eq
        rw [items_flush, items, items, hkept] at hperm
        simp only [List.length_append, List.length_singleton] at hperm ⊢
        omega
      refine ⟨⟨?_, ?_, ?_, fun _ ↦ hover, by rw [hkept]; exact h.lossy⟩, hkept⟩
      · rw [(l.flush.items_put cap x).countP_eq p, List.countP_append, items_flush, h.count,
          List.countP_singleton, if_neg (Bool.eq_false_iff.1 hx), Nat.add_zero]
      · have hle := h.length_le
        rw [hlen, hover]
        omega
      · rw [hover]
        exact Nat.zero_le _

end Logged

end DoubleBuffer
