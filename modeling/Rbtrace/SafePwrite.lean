import Rbtrace.Lib.StreamLoop
import Rbtrace.Writer

/-!
# `safe_pwrite` as one write

`safePwrite` runs on a list of outcomes and on what is left of the buffer.  Here is the
loop of the source: `buf`, `count` and `offset` are variables that have to advance
together, each round asks for the sign of `r` and for `errno`, and the outcomes are a
stream, so that nothing is said in advance about the end of the loop.

`OneWrite` is the view of the caller: either the whole buffer stands at the offset, or a
proper prefix of it and the errno of a `pwrite` that failed.  The loop ends in one of the
two (`safePwriteRun_oneWrite`), if and only if it is not interrupted for ever
(`safePwriteRun_isSome_iff`), and what it does is what `safePwrite` does on the outcomes
it has taken (`safePwriteRun_eq_safePwrite`).

## Conventions

* `buf` is a number of bytes into the buffer of the caller, and `count` and `offset` are
  natural numbers: `r` is at most `count`, so `count -= r` does not borrow.
* A `pwrite` past the end of the file fills the gap with zeros.
-/

namespace Rbtrace

/-! ## The loop -/

/-- `EINTR`. -/
def EINTR : Errno := ⟨4, by decide⟩

namespace PwriteOutcome

/-- What the call of `pwrite` returns. -/
def ret : PwriteOutcome → Int
  | wrote n => n
  | eintr => -1
  | error _ => -1

/-- `errno` after the call; only a call that failed sets it. -/
def errno : PwriteOutcome → Nat
  | wrote _ => 0
  | eintr => EINTR.1
  | error e => e.1

/-- The number of bytes the call has transferred. -/
def bytes : PwriteOutcome → Nat
  | wrote n => n
  | eintr => 0
  | error _ => 0

/-- What a `pwrite` of `count` bytes can come to: a positive number of bytes that is not above
`count`, `EINTR`, or another error. -/
def Fits (count : Nat) : PwriteOutcome → Prop
  | wrote n => 0 < n ∧ n ≤ count
  | eintr => True
  | error e => e ≠ EINTR

end PwriteOutcome

/-- The variables of `safe_pwrite`, and the bytes of the file behind `fd`. -/
structure PwriteVars where
  buf : Nat
  count : Nat
  offset : Nat
  file : List UInt8
deriving DecidableEq

/-- The body of the loop of `safe_pwrite`, for a call of `pwrite` with outcome `o`.  `mem` is
the buffer of the caller. -/
def safePwriteRound (mem : List UInt8) (s : PwriteVars) (o : PwriteOutcome) :
    PwriteVars ⊕ (List UInt8 × Int) :=
  let r := o.ret
  if r < 0 then
    -- `continue`: nothing was transferred, the same call is made again
    if o.errno = EINTR.1 then .inl s
    else .inr (s.file, -o.errno)
  else
    .inl
      { count := s.count - r.toNat
        buf := s.buf + r.toNat
        offset := s.offset + r.toNat
        file := transfer s.file s.offset ((mem.drop s.buf).take r.toNat) }

/-- `while (count > 0)` with that body, and the `return 0` behind it. -/
def safePwriteLoop (mem : List UInt8) : StreamLoop PwriteVars PwriteOutcome (List UInt8 × Int) where
  exit s := if 0 < s.count then none else some (s.file, 0)
  round := safePwriteRound mem

/-- `safe_pwrite`, with at most `n` calls of `pwrite` whose outcomes are `outs`: the number of
calls it has made, the file it leaves, and what it returns. -/
def safePwriteRun (outs : Nat → PwriteOutcome) (n : Nat) (file buf : List UInt8) (off : Nat) :
    Option (Nat × List UInt8 × Int) :=
  (safePwriteLoop buf).run outs n 0 ⟨0, buf.length, off, file⟩

/-! One round, outcome by outcome, and the loop condition. -/

section

variable (mem : List UInt8) (s : PwriteVars)

theorem safePwriteRound_wrote (n : Nat) :
    safePwriteRound mem s (.wrote n) = .inl
      { count := s.count - n
        buf := s.buf + n
        offset := s.offset + n
        file := transfer s.file s.offset ((mem.drop s.buf).take n) } := by
  have hr : ¬ (PwriteOutcome.wrote n).ret < 0 := not_lt.2 (Int.natCast_nonneg n)
  unfold safePwriteRound
  dsimp only
  rw [if_neg hr]
  rfl

theorem safePwriteRound_eintr : safePwriteRound mem s .eintr = .inl s := rfl

theorem safePwriteRound_error {e : Errno} (he : e ≠ EINTR) :
    safePwriteRound mem s (.error e) = .inr (s.file, -(e.1 : Int)) := by
  have hr : (PwriteOutcome.error e).ret < 0 := Int.negSucc_lt_zero 0
  have he' : ¬ (PwriteOutcome.error e).errno = EINTR.1 := fun h ↦ he (Subtype.ext h)
  unfold safePwriteRound
  dsimp only
  rw [if_pos hr, if_neg he']
  rfl

end

theorem safePwriteLoop_exit_eq_none {mem : List UInt8} {s : PwriteVars} :
    (safePwriteLoop mem).exit s = none ↔ 0 < s.count := by
  constructor
  · intro h
    by_contra hc
    exact Option.some_ne_none _ ((if_neg hc).symm.trans h)
  · exact fun hc ↦ if_pos hc

theorem safePwriteLoop_exit_eq_some {mem : List UInt8} {s : PwriteVars} {r : List UInt8 × Int}
    (h : (safePwriteLoop mem).exit s = some r) : s.count = 0 ∧ r = (s.file, 0) := by
  have hc : ¬ 0 < s.count := fun hc ↦
    Option.some_ne_none r (h.symm.trans (safePwriteLoop_exit_eq_none.2 hc))
  exact ⟨Nat.eq_zero_of_not_pos hc, Option.some.inj (h.symm.trans (if_neg hc))⟩

/-! ## One write -/

section

variable (outs : Nat → PwriteOutcome)

/-- The number of bytes the first `k` calls have transferred. -/
def transferred : Nat → Nat
  | 0 => 0
  | k + 1 => transferred k + (outs k).bytes

/-- The `i`-th call of `pwrite` is made: none before it has failed, and there are bytes left. -/
def Called (count i : Nat) : Prop :=
  (∀ j < i, ∀ e, outs j ≠ .error e) ∧ transferred outs i < count

/-- The outcome of each call that is made is one of a `pwrite` of the bytes that are left. -/
def Answers (count : Nat) : Prop :=
  ∀ i, Called outs count i → (outs i).Fits (count - transferred outs i)

/-- The outcomes are `EINTR` from some call on. -/
def InterruptedForever : Prop := ∃ i, ∀ j, i ≤ j → outs j = .eintr

/-- `e` is the first error of the stream apart from `EINTR`, at call `i`. -/
def IsFirstError (i : Nat) (e : Errno) : Prop :=
  outs i = .error e ∧ ∀ j < i, ∀ e', outs j ≠ .error e'

/-- What `safe_pwrite` is to its caller, after `k` calls of `pwrite`: one write of `buf` at
`off`, which took the file from `file` to `file'` and returned `r`. -/
structure OneWrite (file buf : List UInt8) (off k : Nat) (file' : List UInt8) (r : Int) : Prop where
  /-- It returns 0 exactly if all bytes were transferred. -/
  ret_eq_zero_iff : r = 0 ↔ transferred outs k = buf.length
  /-- Then the whole buffer is in the file. -/
  whole : r = 0 → file' = transfer file off buf
  /-- Otherwise it returns the first error that is not `EINTR`, made by its last call, and
  the bytes transferred before are in the file. -/
  cut : r ≠ 0 → ∃ e i, k = i + 1 ∧ IsFirstError outs i e ∧ e ≠ EINTR ∧ r = -(e.1 : Int) ∧
    transferred outs k < buf.length ∧ file' = transfer file off (buf.take (transferred outs k))
  /-- No byte outside the range is changed; where the file did not reach up to the offset, the
  gap reads as zeros. -/
  frame : ∀ i, i < off ∨ off + buf.length ≤ i →
    file'[i]? = file[i]? ∨ file[i]? = none ∧ i < off ∧ file'[i]? = some 0

end

/-! ## What a transfer changes -/

section

variable {file buf : List UInt8} {off : Nat}

/-- A transfer and one right behind it are one. -/
theorem transfer_take_add (file buf : List UInt8) (off a n : Nat) (ha : a ≤ buf.length) :
    transfer (transfer file off (buf.take a)) (off + a) ((buf.drop a).take n) =
      transfer file off (buf.take (a + n)) := by
  have htake : (buf.take (a + n)).take a = buf.take a := by
    rw [List.take_take, Nat.min_eq_left (Nat.le_add_right a n)]
  have hdrop : (buf.take (a + n)).drop a = (buf.drop a).take n := by
    rw [List.drop_take, Nat.add_sub_cancel_left]
  have h := transfer_transfer file off a (buf.take (a + n))
  rwa [htake, hdrop, List.length_take_of_le ha] at h

/-- A transfer of some bytes of a range changes no byte outside it. -/
theorem transfer_frame {b : List UInt8} {count i : Nat} (hb : b.length ≤ count)
    (hi : i < off ∨ off + count ≤ i) :
    (transfer file off b)[i]? = file[i]? ∨
      file[i]? = none ∧ i < off ∧ (transfer file off b)[i]? = some 0 := by
  by_cases hnil : b = []
  · rw [hnil, transfer_nil]
    exact .inl rfl
  · rw [transfer_of_ne_nil hnil]
    rcases hi with hi | hi
    · rw [List.getElem?_splice_of_lt 0 hi]
      cases h : file[i]? with
      | some x => exact .inl rfl
      | none => exact .inr ⟨rfl, hi, rfl⟩
    · exact .inl (List.getElem?_splice_of_le 0 (le_trans (Nat.add_le_add_left hb off) hi))

end

/-! ## The invariant of the loop -/

section

variable {outs : Nat → PwriteOutcome} {file buf : List UInt8} {off : Nat}

/-- At the head of round `i`: `buf`, `count` and `offset` have all moved by the bytes
transferred so far, and these bytes are in the file. -/
structure PwriteInv (outs : Nat → PwriteOutcome) (file buf : List UInt8) (off i : Nat)
    (s : PwriteVars) : Prop where
  noError : ∀ j < i, ∀ e, outs j ≠ .error e
  le : transferred outs i ≤ buf.length
  buf_eq : s.buf = transferred outs i
  count_eq : s.count = buf.length - transferred outs i
  offset_eq : s.offset = off + transferred outs i
  file_eq : s.file = transfer file off (buf.take (transferred outs i))

theorem PwriteInv.init : PwriteInv outs file buf off 0 ⟨0, buf.length, off, file⟩ where
  noError _ hj := absurd hj (Nat.not_lt_zero _)
  le := Nat.zero_le _
  buf_eq := rfl
  count_eq := rfl
  offset_eq := rfl
  file_eq := by rw [transferred, List.take_zero, transfer_nil]

/-- `count > 0` says that the next call is made. -/
theorem PwriteInv.called_iff {i : Nat} {s : PwriteVars} (h : PwriteInv outs file buf off i s) :
    Called outs buf.length i ↔ 0 < s.count := by
  rw [h.count_eq, Nat.sub_pos_iff_lt]
  exact ⟨fun hc ↦ hc.2, fun hlt ↦ ⟨h.noError, hlt⟩⟩

/-- What the next call adds. -/
theorem transferred_succ {i : Nat} {o : PwriteOutcome} (ho : outs i = o) :
    transferred outs (i + 1) = transferred outs i + o.bytes := by
  rw [transferred, ho]

/-- What a call that does not fail leaves of the errors before. -/
theorem noError_succ {i : Nat} (h : ∀ j < i, ∀ e, outs j ≠ .error e)
    (hi : ∀ e, outs i ≠ .error e) : ∀ j < i + 1, ∀ e, outs j ≠ .error e := by
  intro j hj
  rcases Nat.lt_succ_iff_lt_or_eq.1 hj with hlt | rfl
  · exact h j hlt
  · exact hi

/-- **A round that goes on keeps the invariant.** -/
theorem PwriteInv.stay {i : Nat} {s t : PwriteVars} (hfit : Answers outs buf.length)
    (h : PwriteInv outs file buf off i s) (hc : 0 < s.count)
    (ht : safePwriteRound buf s (outs i) = .inl t) : PwriteInv outs file buf off (i + 1) t := by
  have hfits := hfit i (h.called_iff.2 hc)
  cases ho : outs i with
  | wrote n =>
      rw [ho] at ht hfits
      have hn : n ≤ buf.length - transferred outs i := hfits.2
      have hnext : transferred outs (i + 1) = transferred outs i + n := transferred_succ ho
      rw [safePwriteRound_wrote] at ht
      obtain rfl := Sum.inl.inj ht
      constructor
      · exact noError_succ h.noError fun e he ↦ nomatch ho.symm.trans he
      · rw [hnext]
        exact Nat.add_le_of_le_sub' h.le hn
      · simp only [h.buf_eq, hnext]
      · simp only [h.count_eq, hnext, Nat.sub_sub]
      · simp only [h.offset_eq, hnext, Nat.add_assoc]
      · simp only [h.file_eq, h.offset_eq, h.buf_eq, hnext]
        exact transfer_take_add file buf off _ n h.le
  | eintr =>
      rw [ho, safePwriteRound_eintr] at ht
      obtain rfl := Sum.inl.inj ht
      have hnext : transferred outs (i + 1) = transferred outs i := transferred_succ ho
      constructor
      · exact noError_succ h.noError fun e he ↦ nomatch ho.symm.trans he
      all_goals rw [hnext]
      · exact h.le
      · exact h.buf_eq
      · exact h.count_eq
      · exact h.offset_eq
      · exact h.file_eq
  | error e =>
      rw [ho] at ht hfits
      rw [safePwriteRound_error buf s hfits] at ht
      exact nomatch ht

/-- Only an error other than `EINTR` leaves the loop from inside. -/
theorem PwriteInv.leave {i : Nat} {s : PwriteVars} {r : List UInt8 × Int}
    (hfit : Answers outs buf.length) (h : PwriteInv outs file buf off i s) (hc : 0 < s.count)
    (hr : safePwriteRound buf s (outs i) = .inr r) :
    ∃ e, outs i = .error e ∧ e ≠ EINTR ∧ r = (s.file, -(e.1 : Int)) := by
  have hfits := hfit i (h.called_iff.2 hc)
  cases ho : outs i with
  | wrote n =>
      rw [ho, safePwriteRound_wrote] at hr
      exact nomatch hr
  | eintr =>
      rw [ho, safePwriteRound_eintr] at hr
      exact nomatch hr
  | error e =>
      rw [ho] at hr hfits
      rw [safePwriteRound_error buf s hfits] at hr
      exact ⟨e, rfl, hfits, (Sum.inr.inj hr).symm⟩

/-- A round lowers `count` by the bytes it transfers. -/
theorem PwriteInv.count_add_bytes {i : Nat} {s t : PwriteVars}
    (h : PwriteInv outs file buf off i s) (h' : PwriteInv outs file buf off (i + 1) t) :
    t.count + (outs i).bytes = s.count := by
  have hle := h'.le
  rw [transferred] at hle
  rw [h.count_eq, h'.count_eq, transferred, Nat.sub_add_eq]
  exact Nat.sub_add_cancel (Nat.le_sub_of_add_le' hle)

/-- The loop is over because everything is written. -/
theorem PwriteInv.oneWrite_whole {i : Nat} {s : PwriteVars} (h : PwriteInv outs file buf off i s)
    (hc : s.count = 0) : OneWrite outs file buf off i s.file 0 := by
  have hall : transferred outs i = buf.length := by
    refine Nat.le_antisymm h.le (Nat.le_of_sub_eq_zero ?_)
    rw [← h.count_eq, hc]
  have hfile : s.file = transfer file off buf := by rw [h.file_eq, hall, List.take_length]
  constructor
  · exact iff_of_true rfl hall
  · exact fun _ ↦ hfile
  · exact fun h0 ↦ absurd rfl h0
  · intro j hj
    rw [hfile]
    exact transfer_frame le_rfl hj

/-- The loop is over because a `pwrite` failed. -/
theorem PwriteInv.oneWrite_cut {i : Nat} {s : PwriteVars} {e : Errno}
    (h : PwriteInv outs file buf off i s) (hc : 0 < s.count) (ho : outs i = .error e)
    (he : e ≠ EINTR) : OneWrite outs file buf off (i + 1) s.file (-(e.1 : Int)) := by
  have hnext : transferred outs (i + 1) = transferred outs i := transferred_succ ho
  have hlt : transferred outs (i + 1) < buf.length := by
    rw [hnext]
    exact (h.called_iff.2 hc).2
  have hfile : s.file = transfer file off (buf.take (transferred outs (i + 1))) := by
    rw [hnext]
    exact h.file_eq
  have hne : -(e.1 : Int) ≠ 0 := neg_ne_zero.2 (Nat.cast_ne_zero.2 (Nat.ne_of_gt e.2))
  constructor
  · exact iff_of_false hne (Nat.ne_of_lt hlt)
  · exact fun h0 ↦ absurd h0 hne
  · exact fun _ ↦ ⟨e, i, rfl, ⟨ho, h.noError⟩, he, rfl, hlt, hfile⟩
  · intro j hj
    rw [hfile]
    exact transfer_frame (List.length_take_le' _ _) hj

/-- The rounds of `safe_pwrite` make one write. -/
theorem pwriteInv_invariant (hfit : Answers outs buf.length) :
    (safePwriteLoop buf).Invariant outs (PwriteInv outs file buf off)
      (fun k r ↦ OneWrite outs file buf off k r.1 r.2) where
  exit h hexit := by
    obtain ⟨hc, rfl⟩ := safePwriteLoop_exit_eq_some hexit
    exact h.oneWrite_whole hc
  leave h hexit hround := by
    have hc := safePwriteLoop_exit_eq_none.1 hexit
    obtain ⟨e, ho, he, rfl⟩ := h.leave hfit hc hround
    exact h.oneWrite_cut hc ho he
  stay h hexit hround := h.stay hfit (safePwriteLoop_exit_eq_none.1 hexit) hround

/-! ## Termination -/

/-- The loop ends if, whenever it makes a call, some call from there on is not interrupted. -/
theorem exists_safePwriteRun (hfit : Answers outs buf.length)
    (hfair : ∀ i, Called outs buf.length i → ∃ j, i ≤ j ∧ outs j ≠ .eintr) :
    ∃ n x, safePwriteRun outs n file buf off = some x := by
  have hinv := @pwriteInv_invariant outs file buf off hfit
  refine hinv.exists_run PwriteVars.count (fun o ↦ o ≠ .eintr) ?_ ?_ ?_ PwriteInv.init
  · intro i s t h hexit hround
    exact Nat.le.intro (h.count_add_bytes (hinv.stay h hexit hround))
  · intro i s t h hexit hround hne
    have hcall := h.called_iff.2 (safePwriteLoop_exit_eq_none.1 hexit)
    have hbytes : 0 < (outs i).bytes := by
      have hfits := hfit i hcall
      have hno := (hinv.stay h hexit hround).noError i (Nat.lt_succ_self i)
      cases ho : outs i with
      | wrote n =>
          rw [ho] at hfits
          exact hfits.1
      | eintr => exact absurd ho hne
      | error e => exact absurd ho (hno e)
    have hadd := h.count_add_bytes (hinv.stay h hexit hround)
    exact Nat.lt_of_lt_of_eq (Nat.lt_add_of_pos_right hbytes) hadd
  · intro i s h hexit
    exact hfair i (h.called_iff.2 (safePwriteLoop_exit_eq_none.1 hexit))

/-- Once all calls are interrupted, every one of them is made. -/
theorem called_of_interrupted {count i : Nat} (hi : Called outs count i)
    (hint : ∀ j, i ≤ j → outs j = .eintr) (d : Nat) : Called outs count (i + d) := by
  induction d with
  | zero => exact hi
  | succ d ih =>
      have ho := hint (i + d) (Nat.le_add_right i d)
      constructor
      · exact noError_succ ih.1 fun e he ↦ nomatch ho.symm.trans he
      · exact (transferred_succ ho).trans_lt ih.2

theorem transferred_mono (outs : Nat → PwriteOutcome) : Monotone (transferred outs) :=
  monotone_nat_of_le_succ fun _ ↦ Nat.le_add_right _ _

/-- A call is made only if all calls before it were. -/
theorem Called.of_le {count i j : Nat} (h : Called outs count j) (hij : i ≤ j) :
    Called outs count i :=
  ⟨fun k hk ↦ h.1 k (Nat.lt_of_lt_of_le hk hij),
    Nat.lt_of_le_of_lt (transferred_mono outs hij) h.2⟩

/-- **When the loop ends**: exactly if it does not come to a call from which on all are
interrupted. -/
theorem safePwriteRun_isSome_iff (hfit : Answers outs buf.length) :
    (∃ n x, safePwriteRun outs n file buf off = some x) ↔
      ¬ ∃ i, Called outs buf.length i ∧ ∀ j, i ≤ j → outs j = .eintr := by
  constructor
  · rintro ⟨n, ⟨k, r⟩, hrun⟩ ⟨i, hi, hint⟩
    have hcalled : ∀ j, Called outs buf.length j := fun j ↦
      (called_of_interrupted hi hint j).of_le (Nat.le_add_left j i)
    have hstay := @pwriteInv_invariant outs file buf off hfit
    -- every call is made and none fails, so there is no way out
    have hinv : (safePwriteLoop buf).Invariant outs (PwriteInv outs file buf off)
        (fun _ _ ↦ False) := by
      constructor
      · intro j s r h hexit
        have hc := h.called_iff.1 (hcalled j)
        exact Nat.ne_of_gt hc (safePwriteLoop_exit_eq_some hexit).1
      · intro j s r h hexit hround
        obtain ⟨e, ho, -, -⟩ := h.leave hfit (h.called_iff.1 (hcalled j)) hround
        exact (hcalled (j + 1)).1 j (Nat.lt_succ_self j) e ho
      · exact hstay.stay
    exact hinv.run_post PwriteInv.init hrun
  · intro h
    refine exists_safePwriteRun hfit fun i hi ↦ ?_
    by_contra hno
    push Not at hno
    exact h ⟨i, hi, hno⟩

/-! ## The loop as one write -/

/-- What the loop leaves, if it ends, is one write. -/
theorem safePwriteRun_oneWrite {n k : Nat} {file' : List UInt8} {r : Int}
    (hfit : Answers outs buf.length) (h : safePwriteRun outs n file buf off = some (k, file', r)) :
    OneWrite outs file buf off k file' r :=
  (pwriteInv_invariant hfit).run_post PwriteInv.init h

/-- **`safe_pwrite` is one write.**  If its calls of `pwrite` are not interrupted for ever, it
ends, and then it has written the whole buffer and returns 0, or the prefix transferred
before the first error that is not `EINTR`, which it returns. -/
theorem safePwrite_refines_write (hfit : Answers outs buf.length)
    (hint : ¬ InterruptedForever outs) (file : List UInt8) (off : Nat) :
    ∃ k file' r, (∃ n, ∀ m, n ≤ m → safePwriteRun outs m file buf off = some (k, file', r)) ∧
      OneWrite outs file buf off k file' r := by
  have hends : ¬ ∃ i, Called outs buf.length i ∧ ∀ j, i ≤ j → outs j = .eintr :=
    fun ⟨i, _, hi⟩ ↦ hint ⟨i, hi⟩
  obtain ⟨n, ⟨k, file', r⟩, hrun⟩ := (safePwriteRun_isSome_iff hfit).2 hends
  exact ⟨k, file', r, ⟨n, fun m hnm ↦ StreamLoop.run_mono hrun hnm⟩,
    safePwriteRun_oneWrite hfit hrun⟩

/-- These outcomes, and then a full disk. -/
def thenFull (os : List PwriteOutcome) (i : Nat) : PwriteOutcome := os.getD i (.error ENOSPC)

theorem not_interruptedForever_thenFull (os : List PwriteOutcome) :
    ¬ InterruptedForever (thenFull os) := by
  rintro ⟨i, hi⟩
  have h := hi (i + os.length) (Nat.le_add_right _ _)
  rw [thenFull, List.getD_eq_getElem?_getD, List.getElem?_eq_none (Nat.le_add_left _ _)] at h
  exact nomatch h

/-- A short write and an interruption, and then the rest, or no more space. -/
theorem safePwrite_refines_write_short :
    (∃ k file' r, (∃ n, ∀ m, n ≤ m →
        safePwriteRun (thenFull [.wrote 1, .eintr, .wrote 2]) m [9, 9, 9, 9] [1, 2, 3] 2 =
          some (k, file', r)) ∧
      OneWrite (thenFull [.wrote 1, .eintr, .wrote 2]) [9, 9, 9, 9] [1, 2, 3] 2 k file' r) ∧
    safePwriteRun (thenFull [.wrote 1, .eintr, .wrote 2]) 3 [9, 9, 9, 9] [1, 2, 3] 2 =
      some (3, [9, 9, 1, 2, 3], 0) ∧
    (∃ k file' r, (∃ n, ∀ m, n ≤ m →
        safePwriteRun (thenFull [.wrote 1, .eintr]) m [9, 9, 9, 9] [1, 2, 3] 2 =
          some (k, file', r)) ∧
      OneWrite (thenFull [.wrote 1, .eintr]) [9, 9, 9, 9] [1, 2, 3] 2 k file' r) ∧
    safePwriteRun (thenFull [.wrote 1, .eintr]) 3 [9, 9, 9, 9] [1, 2, 3] 2 =
      some (3, [9, 9, 1, 9], -28) := by
  refine ⟨safePwrite_refines_write ?_ (not_interruptedForever_thenFull _) _ _, by decide,
    safePwrite_refines_write ?_ (not_interruptedForever_thenFull _) _ _, by decide⟩
  · rintro (_ | _ | _ | i) -
    · exact ⟨by decide, by decide⟩
    · exact trivial
    · exact ⟨by decide, by decide⟩
    · exact fun h ↦ absurd h (by decide)
  · rintro (_ | _ | i) -
    · exact ⟨by decide, by decide⟩
    · exact trivial
    · exact fun h ↦ absurd h (by decide)

/-! ## The loop and the list of its outcomes -/

/-- One more outcome of `safePwrite` is one more round of the loop. -/
theorem safePwrite_cons_of_stay {mem : List UInt8} {s t : PwriteVars} {o : PwriteOutcome}
    (hc : s.count = (mem.drop s.buf).length) (hpos : 0 < s.count) (hfits : o.Fits s.count)
    (ht : safePwriteRound mem s o = .inl t) (os : List PwriteOutcome) :
    safePwrite (o :: os) s.file (mem.drop s.buf) s.offset =
      safePwrite os t.file (mem.drop t.buf) t.offset := by
  have hne : mem.drop s.buf ≠ [] := List.ne_nil_of_length_pos (hc ▸ hpos)
  cases o with
  | wrote n =>
      have hn : n ≤ (mem.drop s.buf).length := hc ▸ hfits.2
      rw [safePwriteRound_wrote] at ht
      obtain rfl := Sum.inl.inj ht
      simp only [safePwrite, if_neg hne, List.drop_drop, List.length_take_of_le hn]
  | eintr =>
      rw [safePwriteRound_eintr] at ht
      obtain rfl := Sum.inl.inj ht
      simp only [safePwrite, if_neg hne]
  | error e =>
      rw [safePwriteRound_error mem s hfits] at ht
      cases ht

theorem PwriteInv.count_eq_length {i : Nat} {s : PwriteVars} (h : PwriteInv outs file buf off i s) :
    s.count = (buf.drop s.buf).length := by
  rw [List.length_drop, h.buf_eq, h.count_eq]

/-- **The loop is `safePwrite`** on the outcomes it has taken. -/
theorem safePwriteRun_eq_safePwrite {n k : Nat} {r : List UInt8 × Int}
    (hfit : Answers outs buf.length) (h : safePwriteRun outs n file buf off = some (k, r)) :
    safePwrite ((List.range k).map outs) file buf off = r := by
  have hone := @pwriteInv_invariant outs file buf off hfit
  -- what `safePwrite` has to do after `i` outcomes, it has to do from the variables of round `i`
  have hinv : (safePwriteLoop buf).Invariant outs
      (fun i s ↦ PwriteInv outs file buf off i s ∧ ∀ os,
        safePwrite ((List.range i).map outs ++ os) file buf off =
          safePwrite os s.file (buf.drop s.buf) s.offset)
      (fun k r ↦ safePwrite ((List.range k).map outs) file buf off = r) := by
    constructor
    · rintro i s r ⟨h, hos⟩ hexit
      obtain ⟨hc, rfl⟩ := safePwriteLoop_exit_eq_some hexit
      have hnil : buf.drop s.buf = [] :=
        List.eq_nil_of_length_eq_zero (h.count_eq_length.symm.trans hc)
      rw [← List.append_nil ((List.range i).map outs), hos, hnil, safePwrite, transfer_nil]
    · rintro i s r ⟨h, hos⟩ hexit hround
      have hc := safePwriteLoop_exit_eq_none.1 hexit
      have hne : buf.drop s.buf ≠ [] := List.ne_nil_of_length_pos (h.count_eq_length ▸ hc)
      obtain ⟨e, ho, he, rfl⟩ := h.leave hfit hc hround
      rw [List.range_succ, List.map_append, hos, List.map_singleton, ho]
      simp only [safePwrite, if_neg hne]
    · rintro i s t ⟨h, hos⟩ hexit hround
      have hc := safePwriteLoop_exit_eq_none.1 hexit
      have hfits := hfit i (h.called_iff.2 hc)
      rw [← h.count_eq] at hfits
      refine ⟨hone.stay h hexit hround, fun os ↦ ?_⟩
      rw [List.range_succ, List.map_append, List.append_assoc, hos, List.map_singleton,
        List.singleton_append]
      exact safePwrite_cons_of_stay h.count_eq_length hc hfits hround os
  refine hinv.run_post ⟨PwriteInv.init, fun os ↦ ?_⟩ h
  rfl

end

end Rbtrace
