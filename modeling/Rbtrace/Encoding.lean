import Rbtrace.FailedWrite

/-!
# What a record says

A call narrows what it is given and what it reads from the system: the CPU number goes
through `uint16_t` into 8 bits, the thread ID into 18, the trace ID into 6.  The reader
takes the narrowed values for the values themselves, so a record says what the caller did
exactly if nothing was cut off (`faithful_iff`).  Linux has more than 256 CPUs and more
than 2^18 threads to offer.

A loss report is narrowed before: its amount is added up in an `int`
(`lossRecord_exact_iff`).
-/

namespace Rbtrace

open CInt

/-! ## The record a call stores -/

section

variable (cfg : RingConfig) (st : Nat → Stamp) (sh : Shm)

/-- The record that `ringwrap` hands out to a call, if it hands one out. -/
def claimed : Option Nat :=
  (ringwrap (fun sh' lost ↦ (rbtraceAt 0 cfg (fun i ↦ st (i + 1)) sh' (lostArgs lost)).1) cfg
    (st 0) sh).2

/-- What the reader makes of the bytes of the record that a call has stored. -/
def decoded (a : TraceArgs) : Option RbtraceEntry :=
  (claimed cfg st sh).map fun re ↦ .ofBytes ((rbtrace cfg st sh a).1.reBase re).toBytes

end

section

variable {cfg : RingConfig} {st : Nat → Stamp} {sh : Shm} {a : TraceArgs} {re : Nat}

/-- The record that is handed out has been stamped. -/
theorem ringwrap_stamped {report : Shm → Int → Shm} {stamp : Stamp}
    (h : (ringwrap report cfg stamp sh).2 = some re) :
    ∃ e, (ringwrap report cfg stamp sh).1.reBase re = stampEntry stamp e := by
  have hclaim : ∀ sh slot, (claimSlot stamp sh slot).2 = some re →
      ∃ e, (claimSlot stamp sh slot).1.reBase re = stampEntry stamp e := by
    intro sh slot h
    obtain rfl := Option.some.inj h
    exact ⟨_, Function.update_self _ _ _⟩
  unfold ringwrap ringwrapSlot at h ⊢
  dsimp only at h ⊢
  split_ifs at h ⊢
  all_goals exact hclaim _ _ h

/-- A call returns 0 exactly if it is handed a record. -/
theorem rbtrace_eq_zero_iff : (rbtrace cfg st sh a).2 = 0 ↔ ∃ re, claimed cfg st sh = some re := by
  unfold rbtrace rbtraceAt rbtraceWith claimed
  rcases ringwrap _ cfg (st 0) sh with ⟨sh', _ | re⟩
  · exact iff_of_false (show ¬ (-1 : Int) = 0 by decide) fun h ↦ by cases h.choose_spec
  · exact iff_of_true rfl ⟨re, rfl⟩

/-- **The record of a call**, in any state of the ring. -/
theorem reBase_of_claimed (h : claimed cfg st sh = some re) :
    (rbtrace cfg st sh a).1.reBase re = entryOf a (st 0) := by
  obtain ⟨e, he⟩ := ringwrap_stamped h
  unfold claimed at h
  unfold rbtrace rbtraceAt rbtraceWith
  revert h he
  rcases ringwrap _ cfg (st 0) sh with ⟨sh', _ | re'⟩
  · intro h
    cases h
  · intro h he
    obtain rfl := Option.some.inj h
    dsimp only at he ⊢
    rw [Function.update_self, he, fillEntry_stampEntry]

/-- What is decoded is what was stored. -/
theorem decoded_eq_some (h : (rbtrace cfg st sh a).2 = 0) :
    decoded cfg st sh a = some (entryOf a (st 0)) := by
  obtain ⟨re, hre⟩ := rbtrace_eq_zero_iff.1 h
  rw [decoded, hre, Option.map_some, reBase_of_claimed hre, RbtraceEntry.ofBytes_toBytes]

end

/-! ## Threads and CPUs -/

/-- What a call can be given and can read: a trace ID below 64, a CPU number that fits
`uint16_t`, and a thread ID that Linux can assign. -/
structure Issued (a : TraceArgs) (st : Stamp) : Prop where
  traceid : a.traceid.toNat < 64
  cpu_nonneg : 0 ≤ st.cpu
  cpu_lt : st.cpu < 2 ^ 16
  tid_nonneg : 0 ≤ st.tid
  tid_le : st.tid ≤ 2 ^ 22

/-- The record says what the call was given and what it read. -/
structure Faithful (a : TraceArgs) (st : Stamp) (e : RbtraceEntry) : Prop where
  a0 : e.a0 = a.a0
  a1 : e.a1 = a.a1
  a2 : e.a2 = a.a2
  a3 : e.a3 = a.a3
  traceid : e.traceid.toNat = a.traceid.toNat
  cpu : (e.cpuid.toNat : Int) = st.cpu
  tid : (e.thread.toNat : Int) = st.tid

section

variable {a a' : TraceArgs} {stamp : Stamp}

/-- The CPU number of a record: the low 8 bits. -/
theorem entryOf_cpuid (h : Issued a stamp) :
    ((entryOf a stamp).cpuid.toNat : Int) = stamp.cpu % 2 ^ 8 := by
  obtain ⟨-, h₀, h₁, -, -⟩ := h
  simp only [entryOf, fillEntry, stampEntry, BitVec.toNat_setWidth, BitVec.toNat_ofInt]
  omega

/-- The thread ID of a record: the low 18 bits. -/
theorem entryOf_thread (h : Issued a stamp) :
    ((entryOf a stamp).thread.toNat : Int) = stamp.tid % 2 ^ 18 := by
  obtain ⟨-, -, -, h₀, h₁⟩ := h
  simp only [entryOf, fillEntry, stampEntry, BitVec.toNat_ofInt]
  omega

/-- Everything else fits. -/
theorem entryOf_traceid (h : Issued a stamp) :
    (entryOf a stamp).traceid.toNat = a.traceid.toNat := by
  have hid := h.traceid
  simp only [entryOf, fillEntry, BitVec.toNat_setWidth]
  exact Nat.mod_eq_of_lt hid

/-- A stored record is faithful exactly if CPU number and thread ID fit their fields. -/
theorem faithful_entryOf_iff (h : Issued a stamp) :
    Faithful a stamp (entryOf a stamp) ↔ stamp.cpu < 2 ^ 8 ∧ stamp.tid < 2 ^ 18 := by
  have hcpu := entryOf_cpuid h
  have htid := entryOf_thread h
  have hid := entryOf_traceid h
  obtain ⟨-, h₀, -, h₁, -⟩ := h
  constructor
  · rintro ⟨-, -, -, -, -, hc, ht⟩
    omega
  · rintro ⟨hc, ht⟩
    exact ⟨rfl, rfl, rfl, rfl, hid, by omega, by omega⟩

end

/-- **The encoding.**  Two calls that return 0, from any states of the ring, and what the
reader shows of their records.  All of it is what the calls were given and what they read,
and threads that differ are shown as different ones, exactly if the CPU numbers fit 8 bits
and the thread IDs 18; and two threads are shown as one exactly if their IDs agree in the
low 18 bits. -/
theorem faithful_iff (cfg : RingConfig) {st st' : Nat → Stamp} {sh sh' : Shm} {a a' : TraceArgs}
    (h : Issued a (st 0)) (h' : Issued a' (st' 0)) (hret : (rbtrace cfg st sh a).2 = 0)
    (hret' : (rbtrace cfg st' sh' a').2 = 0) :
    ∃ e e', decoded cfg st sh a = some e ∧ decoded cfg st' sh' a' = some e' ∧
      ((Faithful a (st 0) e ∧ Faithful a' (st' 0) e' ∧
          ((st 0).tid ≠ (st' 0).tid → e.thread ≠ e'.thread)) ↔
        ((st 0).cpu < 2 ^ 8 ∧ (st 0).tid < 2 ^ 18) ∧ (st' 0).cpu < 2 ^ 8 ∧ (st' 0).tid < 2 ^ 18) ∧
      (e.thread = e'.thread ↔ (st 0).tid % 2 ^ 18 = (st' 0).tid % 2 ^ 18) := by
  refine ⟨_, _, decoded_eq_some hret, decoded_eq_some hret', ?_, ?_⟩
  · rw [← faithful_entryOf_iff h, ← faithful_entryOf_iff h']
    constructor
    · rintro ⟨hf, hf', -⟩
      exact ⟨hf, hf'⟩
    · rintro ⟨hf, hf'⟩
      refine ⟨hf, hf', fun hne heq ↦ hne ?_⟩
      rw [← hf.tid, ← hf'.tid, heq]
  · rw [← entryOf_thread h, ← entryOf_thread h', Int.natCast_inj]
    exact BitVec.toNat_inj.symm

/-- A call by thread `tid`. -/
def byThread (tid : Int) : Nat → Stamp := fun _ ↦ ⟨⟨0, 0⟩, 0, tid⟩

/-- The arguments of a call. -/
def someArgs : TraceArgs := ⟨2, 1, 2, 3, 4⟩

/-- The ring as the daemon starts it. -/
def freshRing : Shm := (rbtraceDaemonInit twoRing fun _ ↦ none).toShm

/-- Threads 5 and 6 on CPU 0. -/
theorem faithful_of_small : ∃ e e', decoded twoRing (byThread 5) freshRing someArgs = some e ∧
    decoded twoRing (byThread 6) freshRing someArgs = some e' ∧
    Faithful someArgs (byThread 5 0) e ∧ Faithful someArgs (byThread 6 0) e' := by
  have h₅ : Issued someArgs (byThread 5 0) := by constructor <;> decide
  have h₆ : Issued someArgs (byThread 6 0) := by constructor <;> decide
  obtain ⟨e, e', he, he', hiff, -⟩ := @faithful_iff twoRing _ _ freshRing freshRing _ _ h₅ h₆
    (by decide) (by decide)
  obtain ⟨hf, hf', -⟩ := hiff.2 (by decide)
  exact ⟨e, e', he, he', hf, hf'⟩

/-- Thread 262149 is shown as thread 5. -/
theorem not_faithful_of_large : ∃ e e',
    (Issued someArgs (byThread 262149 0) ∧ Issued someArgs (byThread 5 0)) ∧
    (rbtrace twoRing (byThread 262149) freshRing someArgs).2 = 0 ∧
    (rbtrace twoRing (byThread 5) freshRing someArgs).2 = 0 ∧
    decoded twoRing (byThread 262149) freshRing someArgs = some e ∧
    decoded twoRing (byThread 5) freshRing someArgs = some e' ∧
    e.thread = e'.thread ∧ ¬ Faithful someArgs (byThread 262149 0) e := by
  refine ⟨_, _, ⟨?_, ?_⟩, by decide, by decide, decoded_eq_some (by decide),
    decoded_eq_some (by decide), by decide, fun h ↦ absurd h.tid (by decide)⟩
  all_goals constructor <;> decide

/-! ## The amount of a loss report -/

/-- The shared memory as the report of `rbtrace_write_data` finds it: both counters have
been taken. -/
def Sys.beforeReport (s : Sys) : Shm := { s.toShm with ri := { s.ri with riLost := 0, riFlush := 0 } }

/-- A counter that has only been incremented, from zero and without wrapping. -/
def IsCount (n : Int) : Prop := 0 ≤ n ∧ n < 2 ^ 31

section

variable {cfg : RingConfig} {s : Sys}

/-- An `int` that is widened to `uint64_t` keeps its value if it is not negative. -/
theorem toNat_ofInt_eq_iff {x y : Int} (hx : -2 ^ 31 ≤ x) (hx' : x < 2 ^ 31) (hy : 0 ≤ y)
    (hy' : y < 2 ^ 63) : ((BitVec.ofInt 64 x).toNat : Int) = y ↔ x = y := by
  rw [BitVec.toNat_ofInt]
  omega

/-- The counters cannot count further than a 64-bit amount can tell. -/
theorem lostBefore_lt (hsize : cfg.rcSize < 2 ^ 32) (hflush : IsCount s.ri.riFlush)
    (hlost : IsCount s.ri.riLost) : 0 ≤ s.lostBefore cfg ∧ s.lostBefore cfg < 2 ^ 63 := by
  obtain ⟨-, hf⟩ := hflush
  obtain ⟨hl₀, hl⟩ := hlost
  unfold Sys.lostBefore
  split
  · have hnonneg : 0 ≤ (s.ri.riFlush - 1) * (cfg.rcSize : Int) :=
      Int.mul_nonneg (by omega) (Int.natCast_nonneg _)
    have hle : (s.ri.riFlush - 1) * (cfg.rcSize : Int) ≤ (2 ^ 31 - 2) * (2 ^ 32 - 1) :=
      Int.mul_le_mul (by omega) (by omega) (Int.natCast_nonneg _) (by decide)
    omega
  · omega

/-- The amount is right exactly if it fits an `int`. -/
theorem lossAmount_eq_iff (hlost : IsCount s.ri.riLost) :
    lossAmount cfg s.ri.riLost s.ri.riFlush = s.lostBefore cfg ↔
      s.ri.riFlush ≤ 1 ∨ s.ri.riLost + (s.ri.riFlush - 1) * cfg.rcSize < 2 ^ 31 := by
  unfold lossAmount Sys.lostBefore
  by_cases hf : 1 < s.ri.riFlush
  · have hnonneg : 0 ≤ (s.ri.riFlush - 1) * (cfg.rcSize : Int) :=
      Int.mul_nonneg (by omega) (Int.natCast_nonneg _)
    have hl := hlost.1
    rw [if_pos hf, if_pos hf, or_iff_right (not_le.2 hf)]
    constructor
    · intro h
      exact h ▸ i32_lt _
    · intro h
      exact i32_of_range (by omega) h
  · rw [if_neg hf, if_neg hf, Int.add_zero]
    exact iff_of_true rfl (.inl (not_lt.1 hf))

end

/-- **The report of `rbtrace_write_data`.**  Whatever the two counters are when they are
taken, the record that is stored is a report, and its amount is the number of records that
were lost exactly if no buffer was discarded or the sum fits an `int`. -/
theorem lossRecord_exact_iff (cfg : RingConfig) (hsize : cfg.rcSize < 2 ^ 32) (io : DataIo) (s : Sys)
    (hflush : IsCount s.ri.riFlush) (hlost : IsCount s.ri.riLost)
    (hreport : 1 < s.ri.riFlush ∨ s.ri.riLost ≠ 0) {re : Nat}
    (hre : claimed cfg io.stamps s.beforeReport = some re) :
    ((takeCounters cfg io s).reBase re).traceid = RBT_LOST.setWidth 6 ∧
      ((((takeCounters cfg io s).reBase re).a0.toNat : Int) =
          (if 1 < s.ri.riFlush then s.ri.riLost + (s.ri.riFlush - 1) * cfg.rcSize else s.ri.riLost) ↔
        s.ri.riFlush ≤ 1 ∨ s.ri.riLost + (s.ri.riFlush - 1) * cfg.rcSize < 2 ^ 31) := by
  have hstored : (takeCounters cfg io s).reBase re =
      entryOf (lostArgs (lossAmount cfg s.ri.riLost s.ri.riFlush)) (io.stamps 0) := by
    rw [takeCounters_eq_lossReport, lossReport, if_pos hreport]
    exact reBase_of_claimed hre
  have htrue : (if 1 < s.ri.riFlush then s.ri.riLost + (s.ri.riFlush - 1) * cfg.rcSize
      else s.ri.riLost) = s.lostBefore cfg := by
    unfold Sys.lostBefore
    split
    · rfl
    · rw [Int.add_zero]
  have hrange : -2 ^ 31 ≤ lossAmount cfg s.ri.riLost s.ri.riFlush ∧
      lossAmount cfg s.ri.riLost s.ri.riFlush < 2 ^ 31 := by
    unfold lossAmount
    split
    · exact ⟨le_i32 _, i32_lt _⟩
    · exact ⟨le_trans (by decide) hlost.1, hlost.2⟩
  obtain ⟨h₀, h₁⟩ := lostBefore_lt hsize hflush hlost
  rw [hstored, htrue]
  refine ⟨rfl, Iff.trans ?_ (lossAmount_eq_iff hlost)⟩
  exact toNat_ofInt_eq_iff hrange.1 hrange.2 h₀ h₁

/-- A ring of `n` records at the end label, with `flush` requests to flush. -/
def stalled (n : Nat) (h : n * sizeofEntry < 2 ^ 32) (flush : Int) : Sys :=
  let s := rbtraceDaemonInit (ioRing n h) fun _ ↦ none
  { s with ri := { s.ri with riFlush := flush } }

/-- Two buffers of two records have been discarded, and four records are reported. -/
theorem lossRecord_exact_of_two :
    claimed twoRing DataIo.smooth.stamps (stalled 2 (by decide) 3).beforeReport = some 1 ∧
    (((takeCounters twoRing .smooth (stalled 2 (by decide) 3)).reBase 1).a0.toNat : Int) = 4 := by
  have hre : claimed twoRing DataIo.smooth.stamps (stalled 2 (by decide) 3).beforeReport = some 1 := by
    decide
  obtain ⟨-, hiff⟩ := lossRecord_exact_iff twoRing (by decide) .smooth (stalled 2 (by decide) 3)
    ⟨by decide, by decide⟩ ⟨by decide, by decide⟩ (.inl (by decide)) hre
  exact ⟨hre, (hiff.2 (.inr (by decide))).trans (by decide)⟩

/-- The ring of the source, after 32768 buffers have been discarded: 2147483648 records were
lost, and the record says that 18446744071562067968 were. -/
theorem lossRecord_of_stall :
    IsCount (stalled 65536 (by decide) 32769).ri.riFlush ∧
    claimed (ioRing 65536 (by decide)) DataIo.smooth.stamps
      (stalled 65536 (by decide) 32769).beforeReport = some 1 ∧
    ((takeCounters (ioRing 65536 (by decide)) .smooth (stalled 65536 (by decide) 32769)).reBase
      1).a0.toNat = 18446744071562067968 ∧
    (stalled 65536 (by decide) 32769).ri.riLost +
      ((stalled 65536 (by decide) 32769).ri.riFlush - 1) * 65536 = 2147483648 := by
  refine ⟨⟨by decide, by decide⟩, by decide, by decide, by decide⟩

end Rbtrace
