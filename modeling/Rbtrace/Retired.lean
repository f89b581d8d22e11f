import Rbtrace.Swap

/-!
# The buffer the daemon writes

`rbtrace_write_data(ring, false)` writes the buffer at `ri_alt_off`, after the thread has
seen `ri_flush` nonzero.  But `ri_flush` is raised in line 75, before the three assignments
that make the full buffer the inactive one, and the daemon also wakes on its timeout.  So
the buffer at `ri_alt_off` is the one that was retired exactly if no caller is in the swap
section at that moment (`readsRetired_iff`).
-/

namespace Rbtrace

open CInt

/-- The daemon is about to read `ri_alt_off` in `rbtrace_write_data(ring, false)`. -/
def DaemonPc.readsAlt : DaemonPc → Bool
  | .data w .off => !w.doFlush
  | _ => false

/-- It gets there only after it has seen `ri_flush` nonzero. -/
theorem Flow.readsAlt {cfg : RingConfig} {ri ri' : RingInfo} {pc pc' : DaemonPc}
    (hf : Flow cfg ri pc ri' pc') (h : pc'.readsAlt = true) : ri.riFlush ≠ 0 := by
  cases hf with
  | pending hne => exact hne
  | flush => cases h
  | data hf => cases hf <;> cases h
  | @dataReturn w =>
      obtain ⟨c, _ | _⟩ := w <;> cases h
  | _ => cases h

section

variable {τ κ : Type} [DecidableEq τ] [DecidableEq κ] {cfg : RingConfig} {off : Nat}
  {s t : Conc τ κ} {retired : List Nat}

/-- A counter that is not zero was raised from zero once. -/
structure RetiredInv (s : Conc τ κ) (retired : List Nat) : Prop where
  flush : s.sys.ri.riFlush ≠ 0 → retired ≠ []
  reads : s.pc.readsAlt = true → retired ≠ []

theorem RetiredInv.step {e : ConcEvent τ κ} (h : RetiredInv s retired)
    (ht : (concurrent τ κ cfg).step s e = some t) : RetiredInv t (retired ++ retires s e) := by
  have happend : retired ≠ [] → retired ++ retires s e ≠ [] :=
    fun hne ↦ List.append_ne_nil_of_left_ne_nil hne _
  cases Conc.moves ht with
  | call hx hri hpc hat =>
      exact ⟨fun hf ↦ happend (h.flush (hri ▸ hf)), fun hr ↦ happend (h.reads (hpc ▸ hr))⟩
  | @advance x leave pc n p hx hri hpc hn hat =>
      refine ⟨fun hf ↦ ?_, fun hr ↦ happend (h.reads (hpc ▸ hr))⟩
      by_cases hz : s.sys.ri.riFlush = 0
      · generalize hri' : t.sys.ri = ri' at hri
        rw [hri'] at hf
        cases hri with
        | raiseFirst hfirst =>
            rw [retires, if_pos ⟨hx, hfirst⟩]
            exact List.append_ne_nil_of_right_ne_nil _ (List.cons_ne_nil _ _)
        | raiseMore hmore =>
            rw [hz] at hmore
            exact absurd rfl hmore
        | _ => exact absurd hz hf
      · exact happend (h.flush hz)
  | wake hidle hri hpc hat =>
      refine ⟨fun hf ↦ happend (h.flush (hri ▸ hf)), fun hr ↦ ?_⟩
      rw [hpc] at hr
      cases hr
  | daemon hx hri hat =>
      refine ⟨fun hf ↦ happend (h.flush fun hz ↦ hf ?_), fun hr ↦ happend (h.flush (hri.readsAlt hr))⟩
      obtain ⟨-, -, -, hsame | hzero, -⟩ := hri.ring
      · exact hsame.trans hz
      · exact hzero
  | @report w lost hx hri hpc hpc' hat =>
      refine ⟨fun hf ↦ happend (h.flush (hri ▸ hf)), fun hr ↦ ?_⟩
      rw [hpc'] at hr
      obtain ⟨c, _ | _⟩ := w <;> cases hr
  | ctrl hri hpc hat =>
      exact ⟨fun hf ↦ happend (h.flush (hri ▸ hf)), fun hr ↦ happend (h.reads (hpc ▸ hr))⟩
  | @client k pc hk hri hpc hat =>
      refine ⟨fun hf ↦ happend (h.flush fun hz ↦ hf ?_), fun hr ↦ happend (h.reads (hpc ▸ hr))⟩
      rw [hri, (clientStep_ring s.sys.toShm pc).2.2.2]
      split
      · rfl
      · exact hz

/-- The two buffers are different. -/
theorem IsPair.ne {cir alt : Nat} (h : IsPair cfg off cir alt) (hpos : 0 < cfg.rcSize) :
    alt ≠ cir := by
  obtain ⟨rfl, rfl⟩ | ⟨rfl, rfl⟩ := h <;> omega

/-- While a caller is in the swap section, the inactive buffer is not the one it retires. -/
theorem SwapsAt.last_ne {ri : RingInfo} {last : Option Nat} {pc : CallPc}
    (h : SwapsAt cfg off ri last pc) :
    ¬ (last = some ri.riAltOff ∧ ri.riAltOff ≠ ri.riCirOff) := by
  rintro ⟨hlast, hne⟩
  cases pc with
  | swapTemp =>
      obtain ⟨-, hl⟩ := h
      exact hne (Option.some.inj (hlast.symm.trans hl))
  | swapLoad temp =>
      obtain ⟨-, hl, -⟩ := h
      exact hne (Option.some.inj (hlast.symm.trans hl))
  | swapStore temp alt =>
      obtain ⟨-, hl, -⟩ := h
      exact hne (Option.some.inj (hlast.symm.trans hl))
  | swapAlt temp =>
      obtain ⟨-, -, he⟩ := h
      exact hne he
  | _ => exact h

/-- **The daemon writes the buffer that was filled, exactly if no caller is in the swap
section.**  In every run from the start of the ring in which `ri_flush` is not set to zero
while a caller is there: when `rbtrace_write_data(ring, false)` reads `ri_alt_off`, it gets
the buffer that was active when `ri_flush` was last raised from 0 to 1, and not the active
one, if and only if no caller is in the swap section at that moment. -/
theorem readsRetired_iff {sys : Sys} (hsys : sys.ri = (rbtraceInitTraceInfo cfg off).1)
    (hpos : 0 < cfg.rcSize) {evs : List (ConcEvent τ κ)}
    (hkeep : (concurrent τ κ cfg).Guarded KeepsFlush (.start sys) evs)
    (ht : (concurrent τ κ cfg).run (.start sys) evs = some t) (hreads : t.pc.readsAlt = true) :
    (((concurrent τ κ cfg).collect retires (.start sys) evs).getLast? =
        some t.sys.ri.riAltOff ∧ t.sys.ri.riAltOff ≠ t.sys.ri.riCirOff) ↔
      ∀ x, t.inSwap x = false := by
  obtain ⟨hswap, hret⟩ : SwapInv cfg off t
      ([] ++ (concurrent τ κ cfg).collect retires (.start sys) evs).getLast? ∧
      RetiredInv t ([] ++ (concurrent τ κ cfg).collect retires (.start sys) evs) := by
    refine hkeep.collect_invariant
      (P := fun s h ↦ SwapInv cfg off s h.getLast? ∧ RetiredInv s h)
      (fun s h e t hs hok ht ↦ ⟨hs.1.step hok ht, hs.2.step ht⟩) ⟨swapInv_start hsys, ?_, ?_⟩ ht
    · intro hf
      rw [Conc.start, hsys] at hf
      exact absurd rfl hf
    · intro hr
      cases hr
  rw [List.nil_append] at hswap hret
  cases hswap with
  | still h hb hlast =>
      refine iff_of_true ⟨?_, hb.ne hpos⟩ h
      obtain ⟨r, hr⟩ := Option.isSome_iff_exists.1 (List.getLast?_isSome.2 (hret.reads hreads))
      rw [hr, hlast r hr]
  | @swap x pc h hpc hothers =>
      refine iff_of_false hpc.last_ne fun hno ↦ ?_
      have hx := (Conc.inSwap_of_at h).trans hpc.swapping
      rw [hno x] at hx
      cases hx

end

/-- A file is opened, one caller fills a buffer and swaps, and a pass comes to write it. -/
def swapThenFlush : List (ConcEvent (Fin 2) Unit) :=
  .ctrl () (.open (some [47])) :: .replicate 6 (.client ()) ++ [.wake .smooth] ++
    .replicate 7 .daemon ++ traces 0 3 ++ traces 0 3 ++ traces 0 6 ++ [.wake .smooth] ++
    .replicate 4 .daemon

theorem readsRetired_swapThenFlush :
    ∃ t ∈ (concurrent (Fin 2) Unit twoRing).run twoStart swapThenFlush,
      t.pc.readsAlt = true ∧
      (((concurrent (Fin 2) Unit twoRing).collect retires twoStart swapThenFlush).getLast? =
          some t.sys.ri.riAltOff ∧ t.sys.ri.riAltOff ≠ t.sys.ri.riCirOff) := by
  obtain ⟨t, ht, hreads, hno, hkeep⟩ :
      ∃ t ∈ (concurrent (Fin 2) Unit twoRing).run twoStart swapThenFlush,
        t.pc.readsAlt = true ∧ (∀ x, t.inSwap x = false) ∧
        (concurrent (Fin 2) Unit twoRing).Guarded KeepsFlush twoStart swapThenFlush := by
    decide
  exact ⟨t, ht, hreads, (readsRetired_iff rfl (by decide) hkeep ht hreads).2 hno⟩

/-- The daemon wakes when `ri_flush` is raised and the offsets are not exchanged yet. -/
def flushBeforeSwap : List (ConcEvent (Fin 2) Unit) :=
  .ctrl () (.open (some [47])) :: .replicate 6 (.client ()) ++ [.wake .smooth] ++
    .replicate 7 .daemon ++ traces 0 3 ++ traces 0 3 ++ traces 0 2 ++ [.wake .smooth] ++
    .replicate 4 .daemon

/-- It comes to write the buffer that was not filled. -/
theorem flushBeforeSwap_unfilled :
    ∃ t ∈ (concurrent (Fin 2) Unit twoRing).run twoStart flushBeforeSwap,
      t.pc = .data ⟨false, false⟩ .off ∧
      ¬ (((concurrent (Fin 2) Unit twoRing).collect retires twoStart flushBeforeSwap).getLast? =
          some t.sys.ri.riAltOff ∧ t.sys.ri.riAltOff ≠ t.sys.ri.riCirOff) := by
  decide

end Rbtrace
