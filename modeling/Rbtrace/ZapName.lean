import Rbtrace.Backing

/-!
# The names of zap segments

A segment is named after the time of its opening: `"%s.%02d-%02d_%02d-%02d-%02d_%03ld"`,
from the month down to the millisecond.  Every conversion has a fixed width, so the name
determines the path of the session and the six fields (`zapPath_eq_iff`).  It does not
determine the time: the year is not in it, nor what is below a millisecond, and a local
time may come twice.
-/

namespace Rbtrace

/-! ## Decimal numerals -/

/-- The number that a string of digits stands for. -/
def numeral (l : CStr) : Nat := l.foldl (fun n c ↦ 10 * n + (c.toNat - 48)) 0

theorem numeral_append_digit (l : CStr) {d : Nat} (hd : d < 10) :
    numeral (l ++ [UInt8.ofNat (48 + d)]) = 10 * numeral l + d := by
  have hdigit : (UInt8.ofNat (48 + d)).toNat = 48 + d := by
    rw [UInt8.toNat_ofNat_of_lt']
    exact Nat.lt_of_lt_of_le (Nat.add_lt_add_left hd 48) (by decide)
  rw [numeral, List.foldl_append, List.foldl_cons, List.foldl_nil, hdigit, Nat.add_sub_cancel_left]
  rfl

/-- The digits of a number stand for it. -/
theorem numeral_decimal {fuel n : Nat} (h : n < 10 ^ fuel) : numeral (decimal fuel n) = n := by
  induction fuel generalizing n with
  | zero =>
      obtain rfl : n = 0 := Nat.lt_one_iff.1 h
      rfl
  | succ fuel ih =>
      rw [decimal]
      split <;> rename_i hn
      · exact hn.symm
      · have hdiv : n / 10 < 10 ^ fuel := Nat.div_lt_of_lt_mul (by rwa [Nat.pow_succ'] at h)
        rw [numeral_append_digit _ (Nat.mod_lt n (by decide)), ih hdiv, Nat.div_add_mod]

theorem length_decimal_le {fuel n w : Nat} (h : n < 10 ^ w) : (decimal fuel n).length ≤ w := by
  induction fuel generalizing n w with
  | zero => exact Nat.zero_le _
  | succ fuel ih =>
      rw [decimal]
      split <;> rename_i hn
      · exact Nat.zero_le _
      · cases w with
        | zero => exact absurd (Nat.lt_one_iff.1 h) hn
        | succ w =>
            rw [List.length_append]
            exact Nat.succ_le_succ (ih (Nat.div_lt_of_lt_mul (by rwa [Nat.pow_succ'] at h)))

/-- Zeros in front do not change the number. -/
theorem numeral_replicate_append (k : Nat) (l : CStr) :
    numeral (List.replicate k 48 ++ l) = numeral l := by
  induction k with
  | zero => rfl
  | succ k ih =>
      rw [List.replicate_succ, List.cons_append]
      exact ih

/-- `%0<w>d` fills its field. -/
theorem length_printfD {w n : Nat} (h : n < 10 ^ w) : (printfD w n).length = w := by
  rw [printfD, List.length_append, List.length_replicate]
  exact Nat.sub_add_cancel (length_decimal_le h)

theorem numeral_printfD {w n : Nat} (h : n < 10 ^ 20) : numeral (printfD w n) = n := by
  rw [printfD, numeral_replicate_append, numeral_decimal h]

/-- **A field of fixed width at the end of a string** can be read off. -/
theorem append_printfD_inj {w n m : Nat} (hw : w ≤ 20) (hn : n < 10 ^ w) (hm : m < 10 ^ w)
    {l l' : CStr} : l ++ printfD w n = l' ++ printfD w m ↔ l = l' ∧ n = m := by
  constructor
  · intro h
    obtain ⟨hl, hd⟩ := List.append_inj' h ((length_printfD hn).trans (length_printfD hm).symm)
    have hpow : 10 ^ w ≤ 10 ^ 20 := Nat.pow_le_pow_right (by decide) hw
    have hnum := congrArg numeral hd
    rw [numeral_printfD (hn.trans_le hpow), numeral_printfD (hm.trans_le hpow)] at hnum
    exact ⟨hl, hnum⟩
  · rintro ⟨rfl, rfl⟩
    rfl

/-! ## Clock readings -/

/-- A reading of the clock as the C library promises it: the fields of `struct tm` are in
their ranges, and there are less than a thousand million nanoseconds. -/
structure HeaderIo.ClockOk (io : HeaderIo) : Prop where
  mon : io.gm.tmMon < 12
  mday : io.gm.tmMday < 32
  hour : io.gm.tmHour < 24
  min : io.gm.tmMin < 60
  sec : io.gm.tmSec < 61
  nsec : io.ts.tvNsec.toNat < 1000000000

/-- Two readings agree in what goes into the name of a segment. -/
structure HeaderIo.SameFields (a b : HeaderIo) : Prop where
  mon : a.gm.tmMon = b.gm.tmMon
  mday : a.gm.tmMday = b.gm.tmMday
  hour : a.gm.tmHour = b.gm.tmHour
  min : a.gm.tmMin = b.gm.tmMin
  sec : a.gm.tmSec = b.gm.tmSec
  msec : a.ts.tvNsec.toNat / 1000000 = b.ts.tvNsec.toNat / 1000000

/-- **What the name of a segment determines.** -/
theorem zapPath_eq_iff {a b : HeaderIo} {p q : CStr} (ha : a.ClockOk) (hb : b.ClockOk) :
    zapPath p a.ts a.gm = zapPath q b.ts b.gm ↔ p = q ∧ a.SameFields b := by
  obtain ⟨ha₁, ha₂, ha₃, ha₄, ha₅, ha₆⟩ := ha
  obtain ⟨hb₁, hb₂, hb₃, hb₄, hb₅, hb₆⟩ := hb
  have field {n m k : Nat} (hk : k ≤ 100) (hn : n < k) (hm : m < k) {l l' : CStr} :
      l ++ printfD 2 n = l' ++ printfD 2 m ↔ l = l' ∧ n = m :=
    append_printfD_inj (by decide) (hn.trans_le hk) (hm.trans_le hk)
  have msec {n m : Nat} (hn : n < 1000000000) (hm : m < 1000000000) {l l' : CStr} :
      l ++ printfD 3 (n / 1000000) = l' ++ printfD 3 (m / 1000000) ↔
        l = l' ∧ n / 1000000 = m / 1000000 :=
    append_printfD_inj (by decide) (Nat.div_lt_of_lt_mul hn) (Nat.div_lt_of_lt_mul hm)
  have hmon : a.gm.tmMon + 1 < 13 := Nat.succ_lt_succ ha₁
  have hmon' : b.gm.tmMon + 1 < 13 := Nat.succ_lt_succ hb₁
  rw [zapPath, zapPath, msec ha₆ hb₆, List.append_cancel_right_eq, field (by decide) ha₅ hb₅,
    List.append_cancel_right_eq, field (by decide) ha₄ hb₄, List.append_cancel_right_eq,
    field (by decide) ha₃ hb₃, List.append_cancel_right_eq, field (by decide) ha₂ hb₂,
    List.append_cancel_right_eq, field (by decide) hmon hmon', List.append_cancel_right_eq,
    Nat.add_right_cancel_iff]
  constructor
  · rintro ⟨⟨⟨⟨⟨⟨hp, h₁⟩, h₂⟩, h₃⟩, h₄⟩, h₅⟩, h₆⟩
    exact ⟨hp, h₁, h₂, h₃, h₄, h₅, h₆⟩
  · rintro ⟨hp, h₁, h₂, h₃, h₄, h₅, h₆⟩
    exact ⟨⟨⟨⟨⟨⟨hp, h₁⟩, h₂⟩, h₃⟩, h₄⟩, h₅⟩, h₆⟩

end Rbtrace
