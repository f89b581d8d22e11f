import Rbtrace.Swap

/-!
# Who sets `ri_slot` back

When a buffer is full, `ri_slot` runs past `rc_size`, and every call that fetches a slot
there gets nothing.  What brings it back is the call that was handed slot `rc_size` itself:
it swaps or discards, and stores `-1`.  So as long as `ri_slot` is past the end of the
buffer some call has to be on its way to do so (`OwnedInv`).

Slot `rc_size` can also be handed out by the fetches of lines 109 and 128.  After line 109
the compare-and-swap of line 119 gives it back, unless another caller has moved `ri_slot` on;
after line 128 nothing does.  If nobody else is on its way then, the ring is wedged: every
later call is lost, and none of them sets `ri_slot` back.
-/

namespace Rbtrace

open CInt

/-! ## Past the end -/

/-- `ri_slot` is past the last slot of the buffer. -/
def PastEnd (cfg : RingConfig) (ri : RingInfo) : Prop :=
  cfg.rcSize ≤ u32 ri.riSlot ∧ u32 ri.riSlot ≠ 2 ^ 32 - 1

instance (cfg : RingConfig) (ri : RingInfo) : Decidable (PastEnd cfg ri) :=
  inferInstanceAs (Decidable (_ ∧ _))

/-- The call is on its way to set `ri_slot` back. -/
def CallPc.owns (cfg : RingConfig) : CallPc → Bool
  | .raise | .swapTemp | .swapLoad _ | .swapStore _ _ | .swapAlt _ | .reset | .resetDiscard => true
  | .cas slot => slot = cfg.rcSize
  | _ => false

section

variable {cfg : RingConfig} {ri : RingInfo}

theorem not_pastEnd_of_reset : ¬ PastEnd cfg { ri with riSlot := -1 } := fun h ↦ h.2 rfl

/-- A fetch that returns a slot of the buffer leaves `ri_slot` in it. -/
theorem not_pastEnd_of_room (h : ri.nextSlot < cfg.rcSize) : ¬ PastEnd cfg ri.fetched := by
  intro hp
  have hle : cfg.rcSize ≤ u32 (i32 (ri.riSlot + 1)) := hp.1
  rw [u32_i32] at hle
  exact absurd h (Nat.not_lt.2 hle)

/-- A fetch that returns more than `rc_size` found `ri_slot` past the end. -/
theorem PastEnd.of_fetched (hp : PastEnd cfg ri.fetched) (h : ri.nextSlot ≠ cfg.rcSize) :
    PastEnd cfg ri := by
  obtain ⟨hle, hne⟩ : cfg.rcSize ≤ u32 (i32 (ri.riSlot + 1)) ∧
      u32 (i32 (ri.riSlot + 1)) ≠ 2 ^ 32 - 1 := hp
  rw [u32_i32] at hle hne
  have hnext : u32 (ri.riSlot + 1) ≠ cfg.rcSize := h
  rw [u32_add_one] at hle hne hnext
  split at hle
  · rename_i hmax
    rw [if_pos hmax] at hnext
    exact absurd (Nat.le_zero.1 hle).symm hnext
  · rename_i hmax
    rw [if_neg hmax] at hnext
    exact ⟨by omega, hmax⟩

end

section

variable {τ κ : Type} [DecidableEq τ] {cfg : RingConfig} {s t : Conc τ κ}

/-- Caller `x` is on its way to set `ri_slot` back. -/
def Conc.owner (cfg : RingConfig) (s : Conc τ κ) (x : Option τ) : Bool :=
  (s.at x).any (CallPc.owns cfg)

/-- As long as `ri_slot` is past the end, a call is on its way to set it back. -/
structure OwnedInv (cfg : RingConfig) (s : Conc τ κ) : Prop where
  range : i32 s.sys.ri.riSlot = s.sys.ri.riSlot
  owned : PastEnd cfg s.sys.ri → ∃ x, s.owner cfg x = true

/-- The event does not leave `ri_slot` past the end with nobody on its way to set it back:
the fetch of line 128 does not return `rc_size`, and the compare-and-swap of line 119 with
`rc_size` does not find `ri_slot` past it, unless another call is. -/
def LeavesOwner (cfg : RingConfig) (s : Conc τ κ) : ConcEvent τ κ → Prop
  | .advance x _ =>
      (s.at x = some .refetchSpin ∧ s.sys.ri.nextSlot = cfg.rcSize ∨
        s.at x = some (.cas cfg.rcSize) ∧ cfg.rcSize < u32 s.sys.ri.riSlot ∧
          u32 s.sys.ri.riSlot ≠ 2 ^ 32 - 1) →
      ∃ y, y ≠ x ∧ s.owner cfg y = true
  | _ => True

/-! ## The invariant -/

theorem Conc.owner_of_ne {x y : Option τ} {p : Option CallPc}
    (hat : t.at = Function.update s.at x p) (hy : y ≠ x) : t.owner cfg y = s.owner cfg y := by
  rw [Conc.owner, hat, Function.update_of_ne hy, Conc.owner]

theorem Conc.owner_self {x : Option τ} {pc : CallPc}
    (hat : t.at = Function.update s.at x (some pc)) : t.owner cfg x = pc.owns cfg := by
  rw [Conc.owner, hat, Function.update_self]
  rfl

/-- The owner is another call than the one that moves, if that one is none. -/
theorem OwnedInv.of_not_owns (h : OwnedInv cfg s) {x : Option τ} {p : Option CallPc}
    (hx : s.owner cfg x = false) (hat : t.at = Function.update s.at x p)
    (hp : PastEnd cfg s.sys.ri) : ∃ y, t.owner cfg y = true := by
  obtain ⟨y, hy⟩ := h.owned hp
  have hne : y ≠ x := by
    rintro rfl
    rw [hx] at hy
    cases hy
  exact ⟨y, (Conc.owner_of_ne hat hne).trans hy⟩

/-- A step of a call keeps the invariant. -/
theorem OwnedInv.advance (h : OwnedInv cfg s) {x : Option τ} {leave : Bool} {pc : CallPc}
    {n : CallNext} {p : Option CallPc} (hx : s.at x = some pc)
    (hf : CallFlow cfg s.sys.ri pc t.sys.ri n) (hn : n.Leads p)
    (hat : t.at = Function.update s.at x p)
    (hleave : LeavesOwner cfg s (.advance x leave : ConcEvent τ κ)) : OwnedInv cfg t := by
  have hown : s.owner cfg x = pc.owns cfg := by
    rw [Conc.owner, hx]
    rfl
  have hreset : i32 (-1) = -1 := rfl
  generalize hri : t.sys.ri = ri' at hf
  cases hf with
  | fetchRoom hroom | refetchRoom hroom | refetchSpinRoom hroom =>
      refine ⟨by rw [hri]; exact i32_i32 _, fun hp ↦ ?_⟩
      rw [hri] at hp
      exact absurd hp (not_pastEnd_of_room hroom)
  | fetchFull hfull =>
      cases hn
      refine ⟨by rw [hri]; exact i32_i32 _, fun _ ↦ ⟨x, ?_⟩⟩
      rw [Conc.owner_self hat]
      rfl
  | fetchPast hpast =>
      refine ⟨by rw [hri]; exact i32_i32 _, fun hp ↦ h.of_not_owns hown hat ?_⟩
      rw [hri] at hp
      exact hp.of_fetched (Nat.ne_of_gt hpast)
  | refetchFull hfull =>
      cases hn
      refine ⟨by rw [hri]; exact i32_i32 _, fun hp ↦ ?_⟩
      rw [hri] at hp
      by_cases he : s.sys.ri.nextSlot = cfg.rcSize
      · refine ⟨x, ?_⟩
        rw [Conc.owner_self hat, CallPc.owns, he]
        exact decide_eq_true rfl
      · exact h.of_not_owns hown hat (hp.of_fetched he)
  | refetchSpinFull hfull =>
      refine ⟨by rw [hri]; exact i32_i32 _, fun hp ↦ ?_⟩
      rw [hri] at hp
      by_cases he : s.sys.ri.nextSlot = cfg.rcSize
      · obtain ⟨y, hy, ho⟩ := hleave (.inl ⟨hx, he⟩)
        exact ⟨y, (Conc.owner_of_ne hat hy).trans ho⟩
      · exact h.of_not_owns hown hat (hp.of_fetched he)
  | raiseFirst | raiseMore | swapTemp | swapLoad | swapStore | swapAlt =>
      cases hn
      refine ⟨by rw [hri]; exact h.range, fun _ ↦ ⟨x, ?_⟩⟩
      rw [Conc.owner_self hat]
      rfl
  | reset | resetDiscard | casReset =>
      refine ⟨by rw [hri]; exact hreset, fun hp ↦ ?_⟩
      rw [hri] at hp
      exact absurd hp not_pastEnd_of_reset
  | @casMiss slot hmiss =>
      refine ⟨by rw [hri]; exact h.range, fun hp ↦ ?_⟩
      rw [hri] at hp
      by_cases he : slot = cfg.rcSize
      · have hne : u32 s.sys.ri.riSlot ≠ cfg.rcSize := fun heq ↦ by
          refine hmiss ?_
          rw [he, ← h.range, ← heq]
          unfold i32 u32
          omega
        obtain ⟨y, hy, ho⟩ :=
          hleave (.inr ⟨by rw [hx, he], Nat.lt_of_le_of_ne hp.1 (Ne.symm hne), hp.2⟩)
        exact ⟨y, (Conc.owner_of_ne hat hy).trans ho⟩
      · refine h.of_not_owns (hown.trans ?_) hat hp
        exact decide_eq_false he
  | _ =>
      -- the other steps do not touch `ri_slot`, and are not made by an owner
      refine ⟨by rw [hri]; exact h.range, fun hp ↦ h.of_not_owns hown hat ?_⟩
      rw [hri] at hp
      exact hp

/-- A call that starts owns nothing. -/
theorem OwnedInv.start (h : OwnedInv cfg s) {x : Option τ} (hx : s.at x = none)
    (hri : t.sys.ri = s.sys.ri) (hat : t.at = Function.update s.at x (some .fetch)) :
    OwnedInv cfg t := by
  refine ⟨by rw [hri]; exact h.range, fun hp ↦ h.of_not_owns ?_ hat (hri ▸ hp)⟩
  rw [Conc.owner, hx]
  rfl

omit [DecidableEq τ] in
/-- The other parties leave `ri_slot` alone, or set it back. -/
theorem OwnedInv.frame (h : OwnedInv cfg s) (hat : t.at = s.at)
    (hslot : t.sys.ri.riSlot = s.sys.ri.riSlot ∨ t.sys.ri.riSlot = -1) : OwnedInv cfg t := by
  rcases hslot with hslot | hslot
  · refine ⟨by rw [hslot]; exact h.range, fun hp ↦ ?_⟩
    unfold PastEnd at hp
    rw [hslot] at hp
    obtain ⟨x, hx⟩ := h.owned hp
    exact ⟨x, by rwa [Conc.owner, hat]⟩
  · refine ⟨by rw [hslot]; rfl, fun hp ↦ ?_⟩
    unfold PastEnd at hp
    rw [hslot] at hp
    exact absurd rfl hp.2

variable [DecidableEq κ]

/-- **Every step that leaves an owner keeps the invariant.** -/
theorem OwnedInv.step {e : ConcEvent τ κ} (h : OwnedInv cfg s) (hleave : LeavesOwner cfg s e)
    (ht : (concurrent τ κ cfg).step s e = some t) : OwnedInv cfg t := by
  cases Conc.moves ht with
  | call hx hri hpc hat => exact h.start hx hri hat
  | report hx hri hpc hpc' hat => exact h.start hx hri hat
  | advance hx hri hpc hn hat => exact h.advance hx hri hn hat hleave
  | wake hidle hri hpc hat => exact h.frame hat (.inl (by rw [hri]))
  | daemon hx hri hat => exact h.frame hat (.inl hri.ring.2.2.1)
  | ctrl hri hpc hat => exact h.frame hat (.inl (by rw [hri]))
  | @client k pc hk hri hpc hat =>
      refine h.frame hat ?_
      rw [hri, (clientStep_ring s.sys.toShm pc).2.2.1]
      split
      · exact .inr rfl
      · exact .inl rfl

end

/-! ## A call with `ri_slot` in range -/

section

variable {cfg : RingConfig} {sh : Shm}

/-- Right after `ri_slot` has been set back, a call takes slot 0. -/
theorem rbtraceAt_of_reset (hpos : 0 < cfg.rcSize) (hs : sh.ri.riSlot = -1) (st : Nat → Stamp)
    (a : TraceArgs) : (rbtraceAt 0 cfg st sh a).1.ri.riSlot = 0 := by
  have hu : u32 (-1 + 1) = 0 := rfl
  have hi : i32 (-1 + 1) = 0 := rfl
  simp only [rbtraceAt, rbtraceWith, ringwrap, fetchSlot, hs, hu, hi, if_pos hpos, claimSlot]

theorem refetchSlot_isSome (st : Stamp) (h : u32 (sh.ri.riSlot + 1) < cfg.rcSize) :
    (refetchSlot cfg st sh).2.isSome = true := by
  have h' : (fetchSlot sh).2 < cfg.rcSize := h
  rw [refetchSlot, if_pos h']
  rfl

/-- `ringwrap` hands out an entry if `ri_slot` is in range. -/
theorem ringwrap_isSome (hN : 2 ≤ cfg.rcSize) (hlt : cfg.rcSize < 2 ^ 31)
    (h₁ : -1 ≤ sh.ri.riSlot) (h₂ : sh.ri.riSlot < cfg.rcSize) (st : Nat → Stamp) :
    (ringwrap (fun sh' lost ↦ (rbtraceAt 0 cfg (fun i ↦ st (i + 1)) sh' (lostArgs lost)).1) cfg
      (st 0) sh).2.isSome = true := by
  have hnext : ((fetchSlot sh).2 : Int) = sh.ri.riSlot + 1 :=
    u32_of_range (by omega) (by omega)
  rw [ringwrap]
  split
  · rfl
  · rename_i hroom
    have hfull : (fetchSlot sh).2 = cfg.rcSize := by omega
    rw [hfull, ringwrapSlot_full]
    refine refetchSlot_isSome (st 0) ?_
    have hzero : u32 (-1 + 1) = 0 := rfl
    have hone : u32 (0 + 1) = 1 := rfl
    split_ifs with hflush hlost
    · rw [rbtraceAt_of_reset (by omega) rfl, hone]
      omega
    · rw [show (swapBuffers (fetchSlot sh).1).ri.riSlot = -1 from rfl, hzero]
      omega
    · rw [show (discardBuffer (fetchSlot sh).1).ri.riSlot = -1 from rfl, hzero]
      omega

/-- **A call returns 0 if `ri_slot` is in range**, whatever the counters are. -/
theorem rbtrace_returns (hN : 2 ≤ cfg.rcSize) (hlt : cfg.rcSize < 2 ^ 31)
    (h₁ : -1 ≤ sh.ri.riSlot) (h₂ : sh.ri.riSlot < cfg.rcSize) (st : Nat → Stamp)
    (a : TraceArgs) : (rbtrace cfg st sh a).2 = 0 := by
  obtain ⟨re, hre⟩ := Option.isSome_iff_exists.1 (ringwrap_isSome hN hlt h₁ h₂ st)
  rw [rbtrace, rbtraceAt, rbtraceWith]
  split
  · rename_i heq
    rw [heq] at hre
    cases hre
  · rfl

end

/-! ## The theorem -/

section

variable {τ κ : Type} [DecidableEq τ] [DecidableEq κ] {s t : Conc τ κ}

/-- **The ring does not wedge**, as long as nobody leaves `ri_slot` past the end with no call
on its way to set it back: in every run from the state left by `rbtrace_ctrl_open`, whenever
no call is in flight `ri_slot` is in range, and the next call returns 0. -/
theorem unwedged_of_run (cfg : ValidRingConfig) (hN : 2 ≤ cfg.rcSize) {path : CStr} {sh₀ : Shm}
    (hs : rbtraceCtrlOpen (some path) sh₀ = (s.sys.toShm, 0)) {evs : List (ConcEvent τ κ)}
    (hleave : (concurrent τ κ cfg).Guarded (LeavesOwner cfg) s evs)
    (ht : (concurrent τ κ cfg).run s evs = some t) (hidle : ∀ x, t.at x = none) :
    -1 ≤ t.sys.ri.riSlot ∧ t.sys.ri.riSlot < cfg.rcSize ∧
      ∀ st a, (rbtrace cfg st t.sys.toShm a).2 = 0 := by
  have hlt : cfg.rcSize < 2 ^ 31 := cfg.rcSize_lt_int
  have hslot : s.sys.ri.riSlot = -1 := by
    unfold rbtraceCtrlOpen at hs
    split at hs
    · cases hs
    · dsimp only at hs
      split at hs
      · cases hs
      · rw [← (Prod.mk.inj hs).1]
  have hstart : OwnedInv cfg s :=
    ⟨by rw [hslot]; rfl, fun hp ↦ absurd (by rw [hslot]; rfl) hp.2⟩
  have hinv : OwnedInv cfg t :=
    hleave.invariant (fun s e t hs hok ht ↦ hs.step hok ht) hstart ht
  have hrange : ¬ PastEnd cfg t.sys.ri := fun hp ↦ by
    obtain ⟨x, hx⟩ := hinv.owned hp
    rw [Conc.owner, hidle x] at hx
    cases hx
  obtain ⟨h₁, h₂⟩ : -1 ≤ t.sys.ri.riSlot ∧ t.sys.ri.riSlot < cfg.rcSize := by
    have hr := hinv.range
    unfold PastEnd u32 at hrange
    unfold i32 at hr
    omega
  exact ⟨h₁, h₂, fun st a ↦ rbtrace_returns hN hlt h₁ h₂ st a⟩

end

instance decidableLeavesOwner {τ κ : Type} [DecidableEq τ] [Fintype τ] (cfg : RingConfig)
    (s : Conc τ κ) : ∀ e, Decidable (LeavesOwner cfg s e)
  | .advance _ _ => inferInstanceAs (Decidable (_ → _))
  | .call _ _ _ | .wake _ | .daemon | .ctrl _ _ | .client _ => .isTrue trivial

/-- A ring of two records for which a file has just been opened. -/
def twoOpened : Conc (Fin 2) Unit :=
  let sys := rbtraceDaemonInit twoRing fun _ ↦ none
  .start { sys with toShm := (rbtraceCtrlOpen (some [47]) sys.toShm).1 }

/-- Two callers, of which the second comes too late for the full buffer, waits, and finds the
buffers swapped. -/
def lateCaller : List (ConcEvent (Fin 2) Unit) :=
  traces 0 3 ++ traces 0 3 ++ traces 0 1 ++ traces 1 1 ++ advances 0 10 ++ advances 1 4

theorem unwedged_of_run_lateCaller :
    ∃ t ∈ (concurrent (Fin 2) Unit twoRing).run twoOpened lateCaller,
      -1 ≤ t.sys.ri.riSlot ∧ t.sys.ri.riSlot < twoRing.rcSize ∧
        ∀ st a, (rbtrace twoRing st t.sys.toShm a).2 = 0 := by
  obtain ⟨t, ht, hidle, hleave⟩ :
      ∃ t ∈ (concurrent (Fin 2) Unit twoRing).run twoOpened lateCaller, (∀ x, t.at x = none) ∧
        (concurrent (Fin 2) Unit twoRing).Guarded (LeavesOwner twoRing) twoOpened lateCaller := by
    decide
  have hs : rbtraceCtrlOpen (some [47]) (rbtraceDaemonInit twoRing fun _ ↦ none).toShm =
      (twoOpened.sys.toShm, 0) := rfl
  exact ⟨t, ht, unwedged_of_run twoRing (by decide) hs hleave ht hidle⟩

/-- The second caller is late again: the last slot of the new buffer is taken before it
fetches. -/
def lateTwice : List (ConcEvent (Fin 2) Unit) :=
  traces 0 3 ++ traces 0 3 ++ traces 0 1 ++ traces 1 1 ++ advances 0 10 ++ advances 1 1 ++
    traces 0 3 ++ advances 1 2

/-- The ring is wedged. -/
theorem lateTwice_wedged :
    ∃ t ∈ (concurrent (Fin 2) Unit twoRing).run twoOpened lateTwice,
      (∀ x, t.at x = none) ∧ ¬ (-1 ≤ t.sys.ri.riSlot ∧ t.sys.ri.riSlot < twoRing.rcSize) ∧
        (rbtrace twoRing (fun _ ↦ .epoch) t.sys.toShm ⟨2, 0, 0, 0, 0⟩).2 = -1 := by
  decide

end Rbtrace
