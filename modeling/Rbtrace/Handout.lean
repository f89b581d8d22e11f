import Rbtrace.Swap

/-!
# Who holds which entry

An entry is a buffer and a slot of it.  A call gets the slot from the fetch of `ri_slot`,
and the buffer from `ri_cir_off`, which it reads afterwards.  Between two moments at which
`ri_slot` is set back to `-1` no slot is handed out twice; across such a moment, or across
an exchange of the buffers, it is only the pace of the callers that keeps two of them from
getting the same entry.

`HandedInv` says what is kept as long as `ri_slot` is set back only when the calls of the
last round are out of the way.
-/

namespace Rbtrace

open CInt

/-! ## Points -/

/-- The call has a slot and has not read `ri_cir_off` yet. -/
def CallPc.pending : CallPc → Bool
  | .readOff _ => true
  | _ => false

/-- The call has been handed a slot. -/
def CallPc.handed : CallPc → Bool
  | .readOff _ | .store _ _ => true
  | _ => false

/-- The call holds an entry of the buffer at `off`. -/
def CallPc.holds (off : Nat) : CallPc → Bool
  | .store off' _ => off' = off
  | _ => false

/-- The step from here sets `ri_slot` to `-1`: lines 84 and 101, the compare-and-swap of
line 119 if it succeeds, and a fetch that carries the 32-bit counter around. -/
def CallPc.setsBack (ri : RingInfo) : CallPc → Bool
  | .reset | .resetDiscard => true
  | .cas slot => ri.riSlot = i32 slot
  | .fetch | .refetch | .refetchSpin => ri.nextSlot = 2 ^ 32 - 1
  | _ => false

/-- The offset the step from here stores to `ri_cir_off`. -/
def CallPc.storesCir : CallPc → Option Nat
  | .swapStore _ alt => some alt
  | _ => none

theorem RingInfo.nextSlot_fetched {ri : RingInfo} (h : ri.nextSlot ≠ 2 ^ 32 - 1) :
    ri.fetched.nextSlot = ri.nextSlot + 1 := by
  have hnext : u32 (i32 (ri.riSlot + 1)) ≠ 2 ^ 32 - 1 := by
    rw [u32_i32]
    exact h
  have hsucc : ri.fetched.nextSlot = u32 (i32 (ri.riSlot + 1) + 1) := rfl
  rw [hsucc, u32_add_one, if_neg hnext, u32_i32]
  rfl

section

variable {τ κ : Type} {cfg : RingConfig} {s t : Conc τ κ}

/-- No call holds an entry of the buffer at `off`. -/
def Vacant (s : Conc τ κ) (off : Nat) : Prop := ∀ x, (s.at x).any (CallPc.holds off) = false

/-- No call is between its slot and its buffer, and none holds an entry of the active one. -/
def RoundOver (s : Conc τ κ) : Prop :=
  (∀ x, (s.at x).any CallPc.pending = false) ∧ Vacant s s.sys.ri.riCirOff

/-- The event sets `ri_slot` back only when the round is over, and makes a buffer the active
one only when no entry of it is held. -/
def WaitsForRound (s : Conc τ κ) : ConcEvent τ κ → Prop
  | .advance x _ =>
      ((s.at x).any (CallPc.setsBack s.sys.ri) = true → RoundOver s) ∧
        ∀ off ∈ (s.at x).bind CallPc.storesCir, Vacant s off
  | .client k => (s.clients k).any ClientPc.storesSlot = true → RoundOver s
  | _ => True

/-! ## The invariant -/

/-- Slots that are fetched, and entries that are held. -/
structure HandedInv (s : Conc τ κ) : Prop where
  pending_lt : ∀ {x k}, s.at x = some (.readOff k) → k < s.sys.ri.nextSlot
  pending_inj : ∀ {x y k}, s.at x = some (.readOff k) → s.at y = some (.readOff k) → x = y
  holds_lt : ∀ {x k}, s.at x = some (.store s.sys.ri.riCirOff k) → k < s.sys.ri.nextSlot
  apart : ∀ {x y k}, s.at x = some (.readOff k) → s.at y ≠ some (.store s.sys.ri.riCirOff k)
  holds_inj : ∀ {x y off k}, s.at x = some (.store off k) → s.at y = some (.store off k) → x = y

theorem RoundOver.not_pending (h : RoundOver s) {x : Option τ} {k : Nat} :
    s.at x ≠ some (.readOff k) := by
  intro hx
  have hp := h.1 x
  rw [hx] at hp
  cases hp

theorem Vacant.not_holds {off : Nat} (h : Vacant s off) {x : Option τ} {k : Nat} :
    s.at x ≠ some (.store off k) := by
  intro hx
  have hp := h x
  rw [hx] at hp
  exact absurd rfl (of_decide_eq_false hp)

/-- Calls that have been handed a slot in `t` had it in `s`. -/
def Fewer (s t : Conc τ κ) : Prop :=
  ∀ x pc, t.at x = some pc → pc.handed = true → s.at x = some pc

theorem Fewer.pending (h : Fewer s t) {x : Option τ} {k : Nat}
    (hx : t.at x = some (.readOff k)) : s.at x = some (.readOff k) := h x _ hx rfl

theorem Fewer.holds (h : Fewer s t) {x : Option τ} {off k : Nat}
    (hx : t.at x = some (.store off k)) : s.at x = some (.store off k) := h x _ hx rfl

/-- Within a round the invariant is kept when calls go away and slots are handed out. -/
theorem HandedInv.fewer (h : HandedInv s) (hfew : Fewer s t)
    (hcir : t.sys.ri.riCirOff = s.sys.ri.riCirOff)
    (hnext : s.sys.ri.nextSlot ≤ t.sys.ri.nextSlot) : HandedInv t where
  pending_lt hx := Nat.lt_of_lt_of_le (h.pending_lt (hfew.pending hx)) hnext
  pending_inj hx hy := h.pending_inj (hfew.pending hx) (hfew.pending hy)
  holds_lt hx := by
    rw [hcir] at hx
    exact Nat.lt_of_lt_of_le (h.holds_lt (hfew.holds hx)) hnext
  apart hx hy := by
    rw [hcir] at hy
    exact h.apart (hfew.pending hx) (hfew.holds hy)
  holds_inj hx hy := h.holds_inj (hfew.holds hx) (hfew.holds hy)

/-- When the round is over a new one can begin. -/
theorem HandedInv.setBack (h : HandedInv s) (hfew : Fewer s t) (hover : RoundOver s)
    (hcir : t.sys.ri.riCirOff = s.sys.ri.riCirOff) : HandedInv t where
  pending_lt hx := absurd (hfew.pending hx) hover.not_pending
  pending_inj hx hy := h.pending_inj (hfew.pending hx) (hfew.pending hy)
  holds_lt hx := by
    rw [hcir] at hx
    exact absurd (hfew.holds hx) hover.2.not_holds
  apart hx _ := absurd (hfew.pending hx) hover.not_pending
  holds_inj hx hy := h.holds_inj (hfew.holds hx) (hfew.holds hy)

/-- A buffer of which no entry is held can become the active one. -/
theorem HandedInv.exchange (h : HandedInv s) (hfew : Fewer s t)
    (hvacant : Vacant s t.sys.ri.riCirOff) (hnext : t.sys.ri.nextSlot = s.sys.ri.nextSlot) :
    HandedInv t where
  pending_lt hx := hnext ▸ h.pending_lt (hfew.pending hx)
  pending_inj hx hy := h.pending_inj (hfew.pending hx) (hfew.pending hy)
  holds_lt hx := absurd (hfew.holds hx) hvacant.not_holds
  apart _ hy := absurd (hfew.holds hy) hvacant.not_holds
  holds_inj hx hy := h.holds_inj (hfew.holds hx) (hfew.holds hy)

variable [DecidableEq τ]

/-- A call that moves on without a slot. -/
theorem fewer_of_update {x : Option τ} {p : Option CallPc} (hp : p.any CallPc.handed = false)
    (hat : t.at = Function.update s.at x p) : Fewer s t := by
  intro y pc hy hpc
  by_cases hyx : y = x
  · rw [hat, hyx, Function.update_self] at hy
    rw [hy, Option.any_some, hpc] at hp
    cases hp
  · rwa [hat, Function.update_of_ne hyx] at hy

/-- A call fetches the next slot. -/
theorem HandedInv.fetch (h : HandedInv s) {x : Option τ}
    (hat : t.at = Function.update s.at x (some (.readOff s.sys.ri.nextSlot)))
    (hcir : t.sys.ri.riCirOff = s.sys.ri.riCirOff)
    (hnext : t.sys.ri.nextSlot = s.sys.ri.nextSlot + 1) : HandedInv t := by
  have hpending : ∀ {y k}, t.at y = some (.readOff k) →
      y = x ∧ k = s.sys.ri.nextSlot ∨ s.at y = some (.readOff k) ∧ k < s.sys.ri.nextSlot := by
    intro y k hy
    by_cases hyx : y = x
    · rw [hat, hyx, Function.update_self] at hy
      cases hy
      exact .inl ⟨hyx, rfl⟩
    · rw [hat, Function.update_of_ne hyx] at hy
      exact .inr ⟨hy, h.pending_lt hy⟩
  have hholds : ∀ {y off k}, t.at y = some (.store off k) → s.at y = some (.store off k) := by
    intro y off k hy
    by_cases hyx : y = x
    · rw [hat, hyx, Function.update_self] at hy
      cases hy
    · rwa [hat, Function.update_of_ne hyx] at hy
  constructor
  · intro y k hy
    rw [hnext]
    rcases hpending hy with ⟨-, rfl⟩ | ⟨-, hlt⟩
    · exact Nat.lt_succ_self _
    · exact Nat.lt_succ_of_lt hlt
  · intro y z k hy hz
    rcases hpending hy with ⟨rfl, rfl⟩ | ⟨hy', hlt⟩
    · rcases hpending hz with ⟨rfl, -⟩ | ⟨-, hlt⟩
      · rfl
      · exact absurd hlt (Nat.lt_irrefl _)
    · rcases hpending hz with ⟨-, rfl⟩ | ⟨hz', -⟩
      · exact absurd hlt (Nat.lt_irrefl _)
      · exact h.pending_inj hy' hz'
  · intro y k hy
    rw [hcir] at hy
    rw [hnext]
    exact Nat.lt_succ_of_lt (h.holds_lt (hholds hy))
  · intro y z k hy hz
    rw [hcir] at hz
    rcases hpending hy with ⟨-, rfl⟩ | ⟨hy', -⟩
    · exact absurd (h.holds_lt (hholds hz)) (Nat.lt_irrefl _)
    · exact h.apart hy' (hholds hz)
  · intro y z off k hy hz
    exact h.holds_inj (hholds hy) (hholds hz)

/-- A call reads `ri_cir_off`. -/
theorem HandedInv.read (h : HandedInv s) {x : Option τ} {k : Nat}
    (hx : s.at x = some (.readOff k)) (hri : t.sys.ri = s.sys.ri)
    (hat : t.at = Function.update s.at x (some (.store s.sys.ri.riCirOff k))) : HandedInv t := by
  have hpending : ∀ {y k'}, t.at y = some (.readOff k') → s.at y = some (.readOff k') ∧ y ≠ x := by
    intro y k' hy
    by_cases hyx : y = x
    · rw [hat, hyx, Function.update_self] at hy
      cases hy
    · exact ⟨by rwa [hat, Function.update_of_ne hyx] at hy, hyx⟩
  have hholds : ∀ {y off k'}, t.at y = some (.store off k') →
      y = x ∧ off = s.sys.ri.riCirOff ∧ k' = k ∨ s.at y = some (.store off k') := by
    intro y off k' hy
    by_cases hyx : y = x
    · rw [hat, hyx, Function.update_self] at hy
      cases hy
      exact .inl ⟨hyx, rfl, rfl⟩
    · rw [hat, Function.update_of_ne hyx] at hy
      exact .inr hy
  constructor
  · intro y k' hy
    rw [hri]
    exact h.pending_lt (hpending hy).1
  · intro y z k' hy hz
    exact h.pending_inj (hpending hy).1 (hpending hz).1
  · intro y k' hy
    rw [hri] at hy ⊢
    rcases hholds hy with ⟨-, -, rfl⟩ | hy'
    · exact h.pending_lt hx
    · exact h.holds_lt hy'
  · intro y z k' hy hz
    rw [hri] at hz
    obtain ⟨hy', hne⟩ := hpending hy
    rcases hholds hz with ⟨-, -, rfl⟩ | hz'
    · exact hne (h.pending_inj hy' hx)
    · exact h.apart hy' hz'
  · intro y z off k' hy hz
    rcases hholds hy with ⟨rfl, rfl, rfl⟩ | hy'
    · rcases hholds hz with ⟨rfl, -⟩ | hz'
      · rfl
      · exact absurd hz' (h.apart hx)
    · rcases hholds hz with ⟨rfl, rfl, rfl⟩ | hz'
      · exact absurd hy' (h.apart hx)
      · exact h.holds_inj hy' hz'

/-- A fetch that returns no slot of the buffer. -/
theorem HandedInv.fetchNone (h : HandedInv s) {x : Option τ} {p : Option CallPc}
    (hp : p.any CallPc.handed = false) (hat : t.at = Function.update s.at x p)
    (hri : t.sys.ri = s.sys.ri.fetched)
    (hover : decide (s.sys.ri.nextSlot = 2 ^ 32 - 1) = true → RoundOver s) : HandedInv t := by
  have hcir : t.sys.ri.riCirOff = s.sys.ri.riCirOff := by
    rw [hri]
    rfl
  by_cases hmax : s.sys.ri.nextSlot = 2 ^ 32 - 1
  · exact h.setBack (fewer_of_update hp hat) (hover (decide_eq_true hmax)) hcir
  · refine h.fewer (fewer_of_update hp hat) hcir ?_
    rw [hri, RingInfo.nextSlot_fetched hmax]
    exact Nat.le_succ _

/-- **A step of a call hands out no entry that is held.** -/
theorem HandedInv.advance (h : HandedInv s) (hN : cfg.rcSize < 2 ^ 32) {x : Option τ} {leave : Bool}
    {pc : CallPc} {n : CallNext} {p : Option CallPc} (hx : s.at x = some pc)
    (hf : CallFlow cfg s.sys.ri pc t.sys.ri n) (hn : n.Leads p)
    (hat : t.at = Function.update s.at x p)
    (hwait : WaitsForRound s (.advance x leave : ConcEvent τ κ)) : HandedInv t := by
  obtain ⟨hover, hvacant⟩ := hwait
  rw [hx, Option.any_some] at hover
  rw [hx, Option.bind_some] at hvacant
  generalize hri : t.sys.ri = ri' at hf
  cases hf with
  | fetchRoom hroom | refetchRoom hroom | refetchSpinRoom hroom =>
      cases hn
      refine h.fetch hat (by rw [hri]; rfl) ?_
      rw [hri]
      exact RingInfo.nextSlot_fetched (by omega)
  | fetchFull | fetchPast | refetchFull | refetchSpinFull =>
      cases hn
      exact h.fetchNone rfl hat hri hover
  | readOff =>
      cases hn
      exact h.read hx hri hat
  | store =>
      refine h.fewer (fewer_of_update ?_ hat) (by rw [hri]) (by rw [hri])
      cases hn <;> rfl
  | addLost =>
      refine h.fewer (fewer_of_update ?_ hat) (by rw [hri]) (by rw [hri]; exact le_rfl)
      cases hn <;> rfl
  | swapStore =>
      cases hn
      refine h.exchange (fewer_of_update rfl hat) ?_ (by rw [hri]; rfl)
      rw [hri]
      exact hvacant _ rfl
  | reset | resetDiscard =>
      cases hn
      exact h.setBack (fewer_of_update rfl hat) (hover rfl) (by rw [hri])
  | casReset hcas =>
      cases hn
      exact h.setBack (fewer_of_update rfl hat) (hover (decide_eq_true hcas)) (by rw [hri])
  | _ =>
      cases hn
      refine h.fewer (fewer_of_update rfl hat) (by rw [hri]) (Nat.le_of_eq ?_)
      rw [hri] <;> rfl

variable [DecidableEq κ]

/-- **Every step hands out no entry that is held**, if it waits for the round to be over. -/
theorem HandedInv.step (h : HandedInv s) (hN : cfg.rcSize < 2 ^ 32) {e : ConcEvent τ κ}
    (hwait : WaitsForRound s e) (ht : (concurrent τ κ cfg).step s e = some t) : HandedInv t := by
  have hsame : t.at = s.at → Fewer s t := fun hat x pc hx _ ↦ by rwa [hat] at hx
  cases Conc.moves ht with
  | call hx hri hpc hat | report hx hri hpc hpc' hat =>
      exact h.fewer (fewer_of_update rfl hat) (by rw [hri]) (by rw [hri])
  | advance hx hri hpc hn hat => exact h.advance hN hx hri hn hat hwait
  | wake hidle hri hpc hat | ctrl hri hpc hat =>
      exact h.fewer (hsame hat) (by rw [hri]) (by rw [hri])
  | daemon hx hri hat =>
      obtain ⟨hcir, -, hslot, -⟩ := hri.ring
      refine h.fewer (hsame hat) hcir (Nat.le_of_eq ?_)
      rw [RingInfo.nextSlot, RingInfo.nextSlot, hslot]
  | @client k pc hk hri hpc hat =>
      obtain ⟨hcir, -, hslot, -⟩ := clientStep_ring s.sys.toShm pc
      by_cases hst : pc.storesSlot = true
      · refine h.setBack (hsame hat) (hwait ?_) (by rw [hri, hcir])
        rw [hk]
        exact hst
      · refine h.fewer (hsame hat) (by rw [hri, hcir]) (Nat.le_of_eq ?_)
        rw [RingInfo.nextSlot, RingInfo.nextSlot, hri, hslot, if_neg hst]

/-! ## The theorem -/

/-- **No entry is handed out twice**, as long as `ri_slot` is set back only when no call is
between its slot and its buffer and no entry of the active buffer is held, and a buffer is
made the active one only when no entry of it is held: in every state of such a run two calls
in flight hold different entries. -/
theorem handedOnce_of_run (cfg : ValidRingConfig) (sys : Sys) {evs : List (ConcEvent τ κ)}
    (hwait : (concurrent τ κ cfg).Guarded WaitsForRound (.start sys) evs)
    (ht : (concurrent τ κ cfg).run (.start sys) evs = some t) {x y : Option τ} {off slot : Nat}
    (hx : t.at x = some (.store off slot)) (hy : t.at y = some (.store off slot)) : x = y := by
  have hN : cfg.rcSize < 2 ^ 32 := cfg.rcSize_lt.trans (by decide)
  have hstart : HandedInv (.start sys : Conc τ κ) := by
    constructor
    all_goals
      intros
      rename_i hx
      cases hx
  exact (hwait.invariant (fun s e t hs hok ht ↦ hs.step hN hok ht) hstart ht).holds_inj hx hy

end

instance decidableVacant {τ κ : Type} [Fintype τ] (s : Conc τ κ) (off : Nat) :
    Decidable (Vacant s off) := inferInstanceAs (Decidable (∀ _, _ = _))

instance decidableRoundOver {τ κ : Type} [Fintype τ] (s : Conc τ κ) : Decidable (RoundOver s) :=
  inferInstanceAs (Decidable (_ ∧ _))

instance decidableWaitsForRound {τ κ : Type} [Fintype τ] (s : Conc τ κ) :
    ∀ e, Decidable (WaitsForRound s e)
  | .advance x _ => inferInstanceAs (Decidable (_ ∧ ∀ off ∈ (s.at x).bind _, Vacant s off))
  | .client _ => inferInstanceAs (Decidable (_ → _))
  | .call _ _ _ | .wake _ | .daemon | .ctrl _ _ => .isTrue trivial

/-- Two callers hold the two entries of a buffer. -/
def twoHolders : List (ConcEvent (Fin 2) Unit) := traces 0 3 ++ traces 0 10 ++ traces 1 2

theorem handedOnce_twoHolders :
    ∃ t ∈ (concurrent (Fin 2) Unit twoRing).run twoStart twoHolders,
      t.at (some 0) = some (.store 2 0) ∧ t.at (some 1) = some (.store 2 1) ∧
      ∀ x y off slot, t.at x = some (.store off slot) → t.at y = some (.store off slot) → x = y := by
  obtain ⟨t, ht, h₀, h₁, hwait⟩ :
      ∃ t ∈ (concurrent (Fin 2) Unit twoRing).run twoStart twoHolders,
        t.at (some 0) = some (.store 2 0) ∧ t.at (some 1) = some (.store 2 1) ∧
        (concurrent (Fin 2) Unit twoRing).Guarded WaitsForRound twoStart twoHolders := by
    decide
  exact ⟨t, ht, h₀, h₁, fun x y off slot ↦ handedOnce_of_run twoRing _ hwait ht⟩

/-- The first caller has slot 1 and is slow to read `ri_cir_off`; the second one finds the
buffer full, swaps, and is handed slot 1 of the new buffer; then the first one goes on. -/
def slowReader : List (ConcEvent (Fin 2) Unit) :=
  traces 0 1 ++ traces 1 11 ++ traces 1 2 ++ advances 0 1

/-- The two callers hold the same entry. -/
theorem slowReader_handedTwice :
    ∃ t ∈ (concurrent (Fin 2) Unit twoRing).run twoStart slowReader,
      t.at (some 0) = some (.store 2 1) ∧ t.at (some 1) = some (.store 2 1) := by
  decide

end Rbtrace
