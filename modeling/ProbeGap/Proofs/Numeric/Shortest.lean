import ProbeGap.Numeric.Decimal
import ProbeGap.Proofs.Numeric.Order

/-!
# Doubles that have a decimal text

A double is decoded to a dyadic number exactly if it is finite. The shortest decimal of a
positive dyadic number is positive: zero lies below the interval of every such number, and
factors of ten are only taken out of digits that have them.

Main statements: `exists_finite_iff`, `Dyadic.shortest_pos`.
-/

namespace ProbeGap

/-! ## §1. Finite doubles -/

/-- A double decodes to a number if its magnitude is below that of infinity. -/
theorem exists_finite_iff {x : Float} :
    (∃ negative d, Binary64.ofFloat x = .finite negative d) ↔ x.isFinite = true := by
  have hmagnitude : magnitude x < infinityMagnitude
      ↔ x.toBits.toNat / fractionCount % 2048 ≠ 2047 := by
    have hbits : x.toBits.toNat < 18446744073709551616 := x.toBits.toNat_lt
    unfold magnitude
    simp only [infinityMagnitude, signedLimit, fractionCount]
    omega
  rw [isFinite_iff, hmagnitude]
  unfold Binary64.ofFloat Binary64.ofBits
  simp only
  split
  · next htop => split <;> simp [htop]
  · next htop => split <;> simp [htop]

/-! ## §2. Shortest decimals -/

/-- Zero does not read back as a positive number. -/
theorem Dyadic.digits_pos_of_readsBack {x : Dyadic} {d : Decimal} (hx : 0 < x.mantissa)
    (h : x.readsBack d = true) : 0 < d.digits := by
  rcases Nat.eq_zero_or_pos d.digits with hzero | hpos
  · -- The lower end of the interval of a positive number is positive, and zero lies below it.
    exfalso
    have hlow : ∀ low, 0 < low →
        compareScaled d.digits d.exponent low (x.exponent - 2) = .lt := by
      intro low hlow
      unfold compareScaled
      rw [hzero, Nat.zero_mul, Nat.zero_mul]
      apply Nat.compare_eq_lt.mpr
      exact Nat.mul_pos (Nat.mul_pos hlow (Nat.pow_pos (by decide))) (Nat.pow_pos (by decide))
    have hpos : 0 < if x.narrowBelow = true then 4 * x.mantissa - 1 else 4 * x.mantissa - 2 := by
      split <;> omega
    simp [Dyadic.readsBack, hlow _ hpos] at h
  · exact hpos

/-- What is found on a grid reads back. -/
theorem Dyadic.readsBack_of_onGrid? {tie : TieRule} {x : Dyadic} {exponent : Int} {d : Decimal}
    (h : x.onGrid? tie exponent = some d) : x.readsBack d = true := by
  unfold Dyadic.onGrid? at h
  simp only at h
  split at h
  · next hbelow habove =>
    split at h
    · cases h
      exact hbelow
    · cases h
      exact habove
    · split at h
      · cases h
        exact hbelow
      · cases h
        exact habove
  · next hbelow _ =>
    cases h
    exact hbelow
  · next _ habove =>
    cases h
    exact habove
  · cases h

theorem Dyadic.exactDecimal_pos {x : Dyadic} (hx : 0 < x.mantissa) :
    0 < x.exactDecimal.digits := by
  unfold Dyadic.exactDecimal
  split
  · exact Nat.mul_pos hx (Nat.pow_pos (by decide))
  · exact Nat.mul_pos hx (Nat.pow_pos (by decide))

theorem Dyadic.stripZeros_pos (fuel : Nat) {d : Decimal} (hd : 0 < d.digits) :
    0 < (stripZeros fuel d).digits := by
  induction fuel generalizing d with
  | zero => exact hd
  | succ fuel ih =>
    unfold stripZeros
    split
    · exact ih (by simp only; omega)
    · exact hd

/-- The shortest decimal of a positive number is positive. -/
theorem Dyadic.shortest_pos (tie : TieRule) {x : Dyadic} (hx : 0 < x.mantissa) :
    0 < (x.shortest tie).digits := by
  unfold Dyadic.shortest
  apply Dyadic.stripZeros_pos
  cases hfound : (List.range 17).findSome?
      fun (n : Nat) => x.onGrid? tie (x.leading - (n : Int)) with
  | none => exact Dyadic.exactDecimal_pos hx
  | some d =>
    obtain ⟨n, -, hn⟩ := List.exists_of_findSome?_eq_some hfound
    exact Dyadic.digits_pos_of_readsBack hx (Dyadic.readsBack_of_onGrid? hn)

end ProbeGap
