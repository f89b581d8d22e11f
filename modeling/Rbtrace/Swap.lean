import Mathlib.Data.Fintype.Option
import Rbtrace.Concurrent
import Rbtrace.Ledger

/-!
# The swap section

Lines 80 to 82 of `ringwrap_slot` exchange the two offsets with plain assignments; what
keeps two callers from being there at once is `ri_flush`, which only the caller that
raises it from 0 gets past.  The comment in the source calls this guarded by `ri_flush`
and `CMPXCHG`.

The guard holds as long as `ri_flush` is not set back to zero while a caller is in the
section (`SwapInv.step`).  Nothing in the program sees to that: the daemon takes the
counter with an exchange at the end of `rbtrace_write_data`, and `rbtrace_ctrl_open`
stores to it, whatever the callers are doing.
-/

namespace Rbtrace

open CInt

/-- The call is in the swap section. -/
def CallPc.swapping : CallPc → Bool
  | .swapTemp | .swapLoad _ | .swapStore _ _ | .swapAlt _ => true
  | _ => false

section

variable {τ κ : Type}

/-- Caller `x` is in the swap section. -/
def Conc.inSwap (s : Conc τ κ) (x : Option τ) : Bool := (s.at x).any CallPc.swapping

/-- The event sets `ri_flush` to zero. -/
def ZeroesFlush (s : Conc τ κ) : ConcEvent τ κ → Prop
  | .advance x _ => s.at x = some .raise ∧ i32 (s.sys.ri.riFlush + 1) = 0
  | .daemon => s.pc.taking
  | .client k => ∃ pc ∈ s.clients k, pc.storesFlush
  | _ => False

/-- The event does not set `ri_flush` to zero while a caller is in the swap section. -/
def KeepsFlush (s : Conc τ κ) (e : ConcEvent τ κ) : Prop :=
  ZeroesFlush s e → ∀ x, s.inSwap x = false

/-! ## The invariant -/

/-- `cir` and `alt` are the two buffers of a ring that starts at `off`. -/
def IsPair (cfg : RingConfig) (off cir alt : Nat) : Prop :=
  (cir = off ∧ alt = off + cfg.rcSize) ∨ (cir = off + cfg.rcSize ∧ alt = off)

theorem IsPair.symm {cfg : RingConfig} {off cir alt : Nat} (h : IsPair cfg off cir alt) :
    IsPair cfg off alt cir := by
  obtain ⟨hc, ha⟩ | ⟨hc, ha⟩ := h
  · exact .inr ⟨ha, hc⟩
  · exact .inl ⟨ha, hc⟩

theorem IsPair.set_eq {cfg : RingConfig} {off cir alt : Nat} (h : IsPair cfg off cir alt) :
    ({cir, alt} : Set Nat) = {off, off + cfg.rcSize} := by
  obtain ⟨rfl, rfl⟩ | ⟨rfl, rfl⟩ := h
  · rfl
  · exact Set.pair_comm _ _

/-- Where the two offsets are while a caller is in the swap section; `last` is the buffer
that was active when it raised `ri_flush`. -/
def SwapsAt (cfg : RingConfig) (off : Nat) (ri : RingInfo) (last : Option Nat) : CallPc → Prop
  | .swapTemp => IsPair cfg off ri.riCirOff ri.riAltOff ∧ last = some ri.riCirOff
  | .swapLoad temp => IsPair cfg off ri.riCirOff ri.riAltOff ∧ last = some ri.riCirOff ∧
      temp = ri.riCirOff
  | .swapStore temp alt => IsPair cfg off ri.riCirOff ri.riAltOff ∧ last = some ri.riCirOff ∧
      temp = ri.riCirOff ∧ alt = ri.riAltOff
  | .swapAlt temp => IsPair cfg off ri.riCirOff temp ∧ last = some temp ∧
      ri.riAltOff = ri.riCirOff
  | _ => False

/-- Nobody is in the swap section and the offsets are the two buffers, or one caller is
there and `ri_flush` keeps the others out. -/
inductive SwapInv (cfg : RingConfig) (off : Nat) (s : Conc τ κ) (last : Option Nat) : Prop
  | still (h : ∀ x, s.inSwap x = false) (hb : IsPair cfg off s.sys.ri.riCirOff s.sys.ri.riAltOff)
      (hlast : ∀ r ∈ last, r = s.sys.ri.riAltOff) : SwapInv cfg off s last
  | swap {x pc} (h : s.at x = some pc) (hpc : SwapsAt cfg off s.sys.ri last pc)
      (hothers : ∀ y, y ≠ x → s.inSwap y = false) (hflush : i32 s.sys.ri.riFlush ≠ 0) :
      SwapInv cfg off s last

/-- The buffer an event retires: the active one, when `ri_flush` is raised from 0 to 1. -/
def retires (s : Conc τ κ) : ConcEvent τ κ → List Nat
  | .advance x _ =>
      if s.at x = some .raise ∧ i32 (s.sys.ri.riFlush + 1) = 1 then [s.sys.ri.riCirOff] else []
  | _ => []

variable {cfg : RingConfig} {off : Nat} {s t : Conc τ κ} {last : Option Nat}

theorem Conc.inSwap_of_at {x : Option τ} {pc : CallPc} (h : s.at x = some pc) :
    s.inSwap x = pc.swapping := by
  rw [Conc.inSwap, h]
  rfl

/-- Only a caller in the swap section has something to say about the offsets. -/
theorem SwapsAt.swapping {ri : RingInfo} {pc : CallPc} (h : SwapsAt cfg off ri last pc) :
    pc.swapping = true := by
  cases pc with
  | swapTemp | swapLoad _ | swapStore _ _ | swapAlt _ => rfl
  | _ => exact absurd h id

/-- The invariant is about the offsets, the callers in the section, and `ri_flush` as long
as there is one. -/
theorem SwapInv.frame (h : SwapInv cfg off s last)
    (hin : ∀ x, t.inSwap x = s.inSwap x) (hat : ∀ x, s.inSwap x = true → t.at x = s.at x)
    (hcir : t.sys.ri.riCirOff = s.sys.ri.riCirOff) (halt : t.sys.ri.riAltOff = s.sys.ri.riAltOff)
    (hflush : (∀ x, s.inSwap x = false) ∨
      (i32 s.sys.ri.riFlush ≠ 0 → i32 t.sys.ri.riFlush ≠ 0)) : SwapInv cfg off t last := by
  cases h with
  | still h hb hlast =>
      exact .still (fun x ↦ (hin x).trans (h x)) (hcir ▸ halt ▸ hb) (halt ▸ hlast)
  | @swap x pc h hpc hothers hf =>
      have hx : s.inSwap x = true := (Conc.inSwap_of_at h).trans hpc.swapping
      refine .swap ((hat x hx).trans h) ?_ (fun y hy ↦ (hin y).trans (hothers y hy)) ?_
      · cases pc with
        | swapTemp | swapLoad _ | swapStore _ _ | swapAlt _ =>
            simpa only [SwapsAt, hcir, halt] using hpc
        | _ => exact absurd hpc id
      · rcases hflush with hno | hkeep
        · rw [hno x] at hx
          cases hx
        · exact hkeep hf

theorem swapInv_start {sys : Sys} (hsys : sys.ri = (rbtraceInitTraceInfo cfg off).1) :
    SwapInv cfg off (.start sys : Conc τ κ) none := by
  refine .still (fun _ ↦ rfl) ?_ (by simp)
  rw [Conc.start, hsys]
  exact .inl ⟨rfl, rfl⟩

variable [DecidableEq τ]

/-- A call that moves outside the section. -/
theorem Conc.inSwap_of_update {x : Option τ} {p : Option CallPc} (h : s.inSwap x = false)
    (hp : p.any CallPc.swapping = false) (hat : t.at = Function.update s.at x p) :
    (∀ y, t.inSwap y = s.inSwap y) ∧ ∀ y, s.inSwap y = true → t.at y = s.at y := by
  have hother : ∀ y, y ≠ x → t.at y = s.at y := fun y hy ↦ by
    rw [hat, Function.update_of_ne hy]
  refine ⟨fun y ↦ ?_, fun y hy ↦ hother y ?_⟩
  · by_cases hy : y = x
    · subst hy
      rw [h, Conc.inSwap, hat, Function.update_self, hp]
    · rw [Conc.inSwap, Conc.inSwap, hother y hy]
  · rintro rfl
    rw [h] at hy
    cases hy

/-- A caller in the section is the only one. -/
theorem SwapInv.swapper (h : SwapInv cfg off s last) {x : Option τ} {pc : CallPc}
    (hx : s.at x = some pc) (hs : pc.swapping = true) :
    SwapsAt cfg off s.sys.ri last pc ∧ (∀ y, y ≠ x → s.inSwap y = false) ∧
      i32 s.sys.ri.riFlush ≠ 0 := by
  have hin : s.inSwap x = true := (Conc.inSwap_of_at hx).trans hs
  cases h with
  | still h =>
      rw [h x] at hin
      cases hin
  | @swap x' pc' h hpc hothers hf =>
      obtain rfl : x = x' := by
        by_contra hne
        rw [hothers x hne] at hin
        cases hin
      obtain rfl : pc = pc' := Option.some.inj (hx.symm.trans h)
      exact ⟨hpc, hothers, hf⟩

/-- The swapper moves on in the section. -/
theorem SwapInv.goto {x : Option τ} {pc : CallPc} (hat : t.at = Function.update s.at x (some pc))
    (hothers : ∀ y, y ≠ x → s.inSwap y = false) (hflush : i32 t.sys.ri.riFlush ≠ 0)
    (hpc : SwapsAt cfg off t.sys.ri last pc) : SwapInv cfg off t last := by
  refine .swap (by rw [hat, Function.update_self]) hpc (fun y hy ↦ ?_) hflush
  rw [Conc.inSwap, hat, Function.update_of_ne hy]
  exact hothers y hy

/-- The last buffer retired, after a call at `pc` has moved on. -/
def lastRetired (ri : RingInfo) (pc : CallPc) (last : Option Nat) : Option Nat :=
  if pc = .raise ∧ i32 (ri.riFlush + 1) = 1 then some ri.riCirOff else last

theorem lastRetired_of_ne {ri : RingInfo} {pc : CallPc} (h : pc ≠ .raise) :
    lastRetired ri pc last = last := if_neg fun h' ↦ h h'.1

/-- **A step of a call keeps the swap section in order.** -/
theorem SwapInv.advance (h : SwapInv cfg off s last) {x : Option τ} {pc : CallPc} {n : CallNext}
    {p : Option CallPc} (hx : s.at x = some pc) (hf : CallFlow cfg s.sys.ri pc t.sys.ri n)
    (hn : n.Leads p) (hat : t.at = Function.update s.at x p)
    (hkeep : pc = .raise → i32 (s.sys.ri.riFlush + 1) = 0 → ∀ x, s.inSwap x = false) :
    SwapInv cfg off t (lastRetired s.sys.ri pc last) := by
  have hin := Conc.inSwap_of_at hx
  generalize hri : t.sys.ri = ri' at hf
  cases hf with
  | raiseFirst hfirst =>
      cases hn
      rw [lastRetired, if_pos ⟨rfl, hfirst⟩]
      cases h with
      | still h hb hlast =>
          refine .goto hat (fun y _ ↦ h y) ?_ ?_
          · rw [hri, i32_i32, hfirst]
            decide
          · rw [hri]
            exact ⟨hb, rfl⟩
      | swap h hpc hothers hflush => exact absurd (i32_add_one_eq_one hfirst) hflush
  | raiseMore hmore =>
      cases hn
      rw [lastRetired, if_neg (fun h ↦ hmore h.2)]
      obtain ⟨h₁, h₂⟩ := Conc.inSwap_of_update (p := some .resetDiscard) hin rfl hat
      refine h.frame h₁ h₂ (by rw [hri]) (by rw [hri]) ?_
      by_cases hz : i32 (s.sys.ri.riFlush + 1) = 0
      · exact .inl (hkeep rfl hz)
      · refine .inr fun _ ↦ ?_
        rw [hri, i32_i32]
        exact hz
  | swapTemp =>
      cases hn
      obtain ⟨⟨hb, hl⟩, hothers, hflush⟩ := h.swapper hx rfl
      rw [lastRetired_of_ne (by simp)]
      refine .goto hat hothers (by rwa [hri]) ?_
      rw [hri]
      exact ⟨hb, hl, rfl⟩
  | swapLoad =>
      cases hn
      obtain ⟨⟨hb, hl, ht⟩, hothers, hflush⟩ := h.swapper hx rfl
      rw [lastRetired_of_ne (by simp)]
      refine .goto hat hothers (by rwa [hri]) ?_
      rw [hri]
      exact ⟨hb, hl, ht, rfl⟩
  | swapStore =>
      cases hn
      obtain ⟨⟨hb, hl, ht, ha⟩, hothers, hflush⟩ := h.swapper hx rfl
      rw [lastRetired_of_ne (by simp)]
      refine .goto hat hothers (by rwa [hri]) ?_
      rw [hri, ha, ht]
      exact ⟨hb.symm, hl, rfl⟩
  | swapAlt =>
      cases hn
      obtain ⟨⟨hb, hl, -⟩, hothers, -⟩ := h.swapper hx rfl
      refine .still (fun y ↦ ?_) ?_ ?_
      · by_cases hy : y = x
        · rw [Conc.inSwap, hat, hy, Function.update_self]
          rfl
        · rw [Conc.inSwap, hat, Function.update_of_ne hy]
          exact hothers y hy
      · rw [hri]
        exact hb
      · rw [hri, lastRetired_of_ne (by simp), hl]
        simp
  | _ =>
      -- no other step is in the section or touches the offsets or the counter
      obtain ⟨h₁, h₂⟩ := Conc.inSwap_of_update hin (by cases hn <;> rfl) hat
      rw [lastRetired_of_ne (by simp)]
      refine h.frame h₁ h₂ ?_ ?_ (.inr ?_) <;> rw [hri]
      all_goals first | rfl | exact id

variable [DecidableEq κ]

/-- **Every step keeps the swap section in order**, unless it sets `ri_flush` to zero while
a caller is there. -/
theorem SwapInv.step {e : ConcEvent τ κ} {retired : List Nat}
    (h : SwapInv cfg off s retired.getLast?) (hkeep : KeepsFlush s e)
    (ht : (concurrent τ κ cfg).step s e = some t) :
    SwapInv cfg off t (retired ++ retires s e).getLast? := by
  cases Conc.moves ht with
  | @call x st a hx hri hpc hat =>
      obtain ⟨h₁, h₂⟩ := Conc.inSwap_of_update (by rw [Conc.inSwap, hx]; rfl) rfl hat
      simp only [retires, List.append_nil]
      exact h.frame h₁ h₂ (by rw [hri]) (by rw [hri]) (.inr (by rw [hri]; exact id))
  | report hx hri hpc hpc' hat =>
      obtain ⟨h₁, h₂⟩ := Conc.inSwap_of_update (by rw [Conc.inSwap, hx]; rfl) rfl hat
      simp only [retires, List.append_nil]
      exact h.frame h₁ h₂ (by rw [hri]) (by rw [hri]) (.inr (by rw [hri]; exact id))
  | @advance x leave pc n p hx hri hpc hn hat =>
      have hlast : (retired ++ retires s (.advance x leave : ConcEvent τ κ)).getLast? =
          lastRetired s.sys.ri pc retired.getLast? := by
        simp only [retires, lastRetired, hx, Option.some.injEq]
        split <;> simp
      rw [hlast]
      refine h.advance hx hri hn hat fun hpc' hz ↦ hkeep ⟨?_, hz⟩
      rw [hx, hpc']
  | wake hidle hri hpc hat =>
      simp only [retires, List.append_nil]
      refine h.frame (fun x ↦ ?_) (fun x _ ↦ by rw [hat]) (by rw [hri]) (by rw [hri])
        (.inr (by rw [hri]; exact id))
      rw [Conc.inSwap, hat, Conc.inSwap]
  | daemon hx hri hat =>
      obtain ⟨hcir, halt, -⟩ := hri.ring
      simp only [retires, List.append_nil]
      refine h.frame (fun x ↦ ?_) (fun x _ ↦ by rw [hat]) hcir halt ?_
      · rw [Conc.inSwap, hat, Conc.inSwap]
      · by_cases htake : s.pc.taking = true
        · exact .inl (hkeep htake)
        · rw [(hri.of_not_taking (Bool.eq_false_iff.2 htake)).2]
          exact .inr id
  | ctrl hri hpc hat =>
      simp only [retires, List.append_nil]
      refine h.frame (fun x ↦ ?_) (fun x _ ↦ by rw [hat]) (by rw [hri]) (by rw [hri])
        (.inr (by rw [hri]; exact id))
      rw [Conc.inSwap, hat, Conc.inSwap]
  | @client k pc hk hri hpc hat =>
      obtain ⟨hcir, halt, -, hflush⟩ := clientStep_ring s.sys.toShm pc
      simp only [retires, List.append_nil]
      refine h.frame (fun x ↦ ?_) (fun x _ ↦ by rw [hat]) (by rw [hri, hcir]) (by rw [hri, halt]) ?_
      · rw [Conc.inSwap, hat, Conc.inSwap]
      · rw [hri, hflush]
        split
        · rename_i hst
          exact .inl (hkeep ⟨pc, hk, hst⟩)
        · exact .inr id

/-! ## The two buffers stay two -/

/-- **The two buffers of a ring stay two.**  In every run from the start of the ring in
which `ri_flush` is not set to zero while a caller is in the swap section, no two callers
are ever there at once, and when none is there the two offsets are those the ring started
with. -/
theorem buffers_of_run {sys : Sys} (hsys : sys.ri = (rbtraceInitTraceInfo cfg off).1)
    {evs : List (ConcEvent τ κ)} (hkeep : (concurrent τ κ cfg).Guarded KeepsFlush (.start sys) evs)
    (ht : (concurrent τ κ cfg).run (.start sys) evs = some t) :
    (∀ x y, t.inSwap x = true → t.inSwap y = true → x = y) ∧
      ((∀ x, t.inSwap x = false) →
        ({t.sys.ri.riCirOff, t.sys.ri.riAltOff} : Set Nat) = {off, off + cfg.rcSize}) := by
  have hinv : SwapInv cfg off t _ :=
    hkeep.collect_invariant (P := fun s h ↦ SwapInv cfg off s h.getLast?) (h := [])
      (fun s h e t hs hok ht ↦ hs.step hok ht) (swapInv_start hsys) ht
  cases hinv with
  | still h hb =>
      refine ⟨fun x y hx ↦ ?_, fun _ ↦ hb.set_eq⟩
      rw [h x] at hx
      cases hx
  | @swap x pc h hpc hothers =>
      have honly : ∀ y, t.inSwap y = true → y = x := fun y hy ↦ by
        by_contra hne
        rw [hothers y hne] at hy
        cases hy
      refine ⟨fun y z hy hz ↦ (honly y hy).trans (honly z hz).symm, fun hno ↦ ?_⟩
      have hx := (Conc.inSwap_of_at h).trans hpc.swapping
      rw [hno x] at hx
      cases hx

end

/-! Small runs of two callers and one client on a ring of two records, whose first slot to be handed
out is slot 1. -/

/-- There is a caller `0`, by one and the same proof in all of these runs. -/
instance neZero_callers : NeZero 2 := ⟨Nat.succ_ne_zero 1⟩

/-- Caller `x` makes `k` accesses. -/
def advances (x : Fin 2) (k : Nat) : List (ConcEvent (Fin 2) Unit) :=
  List.replicate k (.advance (some x) false)

/-- Caller `x` enters `rbtrace()` and makes `k` accesses. -/
def traces (x : Fin 2) (k : Nat) : List (ConcEvent (Fin 2) Unit) :=
  .call x (fun _ ↦ .epoch) ⟨2, 0, 0, 0, 0⟩ :: advances x k

instance decidableZeroesFlush {τ κ : Type} (s : Conc τ κ) : ∀ e, Decidable (ZeroesFlush s e)
  | .advance _ _ => inferInstanceAs (Decidable (_ ∧ _))
  | .daemon => inferInstanceAs (Decidable (_ = true))
  | .client k => inferInstanceAs (Decidable (∃ pc ∈ s.clients k, pc.storesFlush = true))
  | .call _ _ _ | .wake _ | .ctrl _ _ => .isFalse id

instance decidableKeepsFlush {τ κ : Type} [Fintype τ] (s : Conc τ κ) (e : ConcEvent τ κ) :
    Decidable (KeepsFlush s e) := inferInstanceAs (Decidable (_ → _))

/-- The start of a ring of two records. -/
def twoStart : Conc (Fin 2) Unit := .start (rbtraceDaemonInit twoRing fun _ ↦ none)

/-- A caller fills the buffer and is in the swap section; a second one is refused. -/
def swapRefuses : List (ConcEvent (Fin 2) Unit) := traces 0 3 ++ traces 0 3 ++ traces 1 1

/-- Both are through, a file is opened, and the second caller fills the other buffer and swaps. -/
def openBetweenSwaps : List (ConcEvent (Fin 2) Unit) :=
  advances 0 8 ++ .advance (some 1) true :: advances 1 3 ++
    [.ctrl () (.open (some [47])), .client (), .client (), .client ()] ++
    traces 1 3 ++ traces 0 3 ++ traces 1 6

theorem buffers_of_run_openBetweenSwaps :
    ∃ s t, (concurrent (Fin 2) Unit twoRing).run twoStart swapRefuses = some s ∧
      s.inSwap (some 0) = true ∧ s.at (some 1) = some (.spin 1024) ∧
      (∀ x y, s.inSwap x = true → s.inSwap y = true → x = y) ∧
      (concurrent (Fin 2) Unit twoRing).run s openBetweenSwaps = some t ∧
      t.sys.ri.riFlush = 1 ∧
      ({t.sys.ri.riCirOff, t.sys.ri.riAltOff} : Set Nat) = {0, 0 + twoRing.rcSize} := by
  obtain ⟨s, hrun, hkeep, hswap, hspin⟩ :
      ∃ s ∈ (concurrent (Fin 2) Unit twoRing).run twoStart swapRefuses,
        (concurrent (Fin 2) Unit twoRing).Guarded KeepsFlush twoStart swapRefuses ∧
        s.inSwap (some 0) = true ∧ s.at (some 1) = some (.spin 1024) := by
    decide
  obtain ⟨t, hall, hguard, hno, hflush⟩ :
      ∃ t ∈ (concurrent (Fin 2) Unit twoRing).run twoStart (swapRefuses ++ openBetweenSwaps),
        (concurrent (Fin 2) Unit twoRing).Guarded KeepsFlush twoStart
          (swapRefuses ++ openBetweenSwaps) ∧
        (∀ x, t.inSwap x = false) ∧ t.sys.ri.riFlush = 1 := by
    decide +kernel
  obtain ⟨s', hs', hrest⟩ := (concurrent (Fin 2) Unit twoRing).run_append_eq_some.1 hall
  obtain rfl := Option.some.inj (hrun.symm.trans hs')
  exact ⟨s, t, hrun, hswap, hspin, (buffers_of_run rfl hkeep hrun).1, hrest, hflush,
    (buffers_of_run rfl hguard hall).2 hno⟩

/-- A caller is in the swap section when a file is opened; a second caller fills the buffer
again and swaps, and then the first one goes on. -/
def openInSwap : List (ConcEvent (Fin 2) Unit) :=
  traces 0 3 ++ traces 0 3 ++ [.ctrl () (.open (some [47])), .client (), .client (), .client ()] ++
    traces 1 3 ++ traces 1 3 ++ traces 1 6 ++ advances 0 3

/-- The two buffers have become one. -/
theorem openInSwap_aliases :
    ∃ t ∈ (concurrent (Fin 2) Unit twoRing).run twoStart openInSwap,
      (∀ x, t.inSwap x = false) ∧
      ({t.sys.ri.riCirOff, t.sys.ri.riAltOff} : Set Nat) ≠ {0, 0 + twoRing.rcSize} := by
  obtain ⟨t, ht, hno, hcir, halt⟩ :
      ∃ t ∈ (concurrent (Fin 2) Unit twoRing).run twoStart openInSwap,
        (∀ x, t.inSwap x = false) ∧ t.sys.ri.riCirOff = 0 ∧ t.sys.ri.riAltOff = 0 := by
    decide
  refine ⟨t, ht, hno, fun h ↦ ?_⟩
  have hmem : 0 + twoRing.rcSize ∈ ({t.sys.ri.riCirOff, t.sys.ri.riAltOff} : Set Nat) :=
    h ▸ .inr rfl
  rw [hcir, halt] at hmem
  revert hmem
  simp [twoRing, ioRing]

end Rbtrace
