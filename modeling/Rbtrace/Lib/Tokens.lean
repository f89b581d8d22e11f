import Mathlib.Data.List.Basic
import Mathlib.Data.List.TakeWhile

/-!
# Tokens between separators

The tokens of a list are its non-empty stretches between separators.  A scanner takes them
off one at a time: it skips separators, takes what it finds up to the next one, and goes
on behind it (`next`).  That is how `strtok` works, and it finds all tokens in order
(`tokens_eq_next`).
-/

namespace Tokens

variable {α : Type*} [DecidableEq α] {sep c : α} {l w r : List α}

/-- The non-empty stretches between separators. -/
def tokens (sep : α) (l : List α) : List (List α) := (l.splitOn sep).filter (· ≠ [])

/-- The first token, and what is behind the separator that ends it. -/
def next (sep : α) (l : List α) : Option (List α × List α) :=
  match l.dropWhile (· = sep) with
  | [] => none
  | c :: cs => some ((c :: cs).takeWhile (· ≠ sep), ((c :: cs).dropWhile (· ≠ sep)).drop 1)

@[simp] theorem tokens_nil (sep : α) : tokens sep [] = [] := rfl

/-- A leading separator does not matter. -/
theorem tokens_cons_sep (sep : α) (l : List α) : tokens sep (sep :: l) = tokens sep l := by
  rw [tokens, List.splitOn_cons_eq_if_modifyHead, if_pos (beq_self_eq_true sep),
    List.filter_cons_of_neg (by simp), tokens]

/-- Nor do several. -/
theorem tokens_dropWhile (sep : α) (l : List α) :
    tokens sep (l.dropWhile (· = sep)) = tokens sep l := by
  induction l with
  | nil => rfl
  | cons c l ih =>
      by_cases hc : c = sep
      · rw [List.dropWhile_cons_of_pos (by simpa using hc), ih, hc, tokens_cons_sep]
      · rw [List.dropWhile_cons_of_neg (by simpa using hc)]

/-- A list that does not start with a separator starts with a token. -/
theorem tokens_cons_of_ne (hc : c ≠ sep) (l : List α) :
    tokens sep (c :: l) = (c :: l).takeWhile (· ≠ sep) ::
      tokens sep (((c :: l).dropWhile (· ≠ sep)).drop 1) := by
  have hword : ∀ x ∈ (c :: l).takeWhile (· ≠ sep), x ≠ sep := by
    intro x hx
    simpa using List.mem_takeWhile_imp hx
  have hmem : sep ∉ (c :: l).takeWhile (· ≠ sep) := fun h ↦ hword sep h rfl
  have hne : (c :: l).takeWhile (· ≠ sep) ≠ [] := by
    rw [List.takeWhile_cons_of_pos (by simpa using hc)]
    exact List.cons_ne_nil _ _
  have hsplit := List.takeWhile_append_dropWhile (p := (· ≠ sep)) (l := c :: l)
  cases hrest : (c :: l).dropWhile (· ≠ sep) with
  | nil =>
      rw [hrest, List.append_nil] at hsplit
      rw [hsplit] at hmem hne
      rw [hsplit, List.drop_nil, tokens_nil, tokens, List.splitOn_eq_singleton hmem]
      simp
  | cons d ds =>
      have hd : d = sep := by
        have h := List.head?_dropWhile_not (· ≠ sep) (c :: l)
        rw [hrest, List.head?_cons] at h
        simpa using h
      rw [hrest, hd] at hsplit
      rw [hd, List.drop_one, List.tail_cons, ← hsplit, tokens,
        List.splitOn_append_cons_self_of_not_mem hmem, hsplit, List.filter_cons_of_pos (by simpa using hne),
        tokens]

/-- **The scanner finds the tokens.** -/
theorem tokens_eq_next (sep : α) (l : List α) :
    tokens sep l = match next sep l with
      | none => []
      | some (w, r) => w :: tokens sep r := by
  rw [← tokens_dropWhile, next]
  cases h : l.dropWhile (· = sep) with
  | nil => rfl
  | cons c cs =>
      have hc : c ≠ sep := by
        have h' := List.head?_dropWhile_not (· = sep) l
        rw [h, List.head?_cons] at h'
        simpa using h'
      exact tokens_cons_of_ne hc cs

/-- The scanner moves on. -/
theorem length_lt_of_next (h : next sep l = some (w, r)) : r.length < l.length := by
  unfold next at h
  split at h
  · cases h
  · rename_i c cs hdrop
    obtain ⟨-, rfl⟩ := Prod.mk.inj (Option.some.inj h)
    have hle : (l.dropWhile (· = sep)).length ≤ l.length := (List.dropWhile_suffix _).length_le
    have hle' : ((c :: cs).dropWhile (· ≠ sep)).length ≤ (c :: cs).length :=
      (List.dropWhile_suffix _).length_le
    rw [hdrop] at hle
    rw [List.length_drop]
    rw [List.length_cons] at hle hle'
    omega

end Tokens
