import ProbeGap.Numeric.Count

/-!
# Reading digits back

Numbers are written with or without leading zeros, and a reader takes the digits at the
front of a text as far as they go. What it takes is what was written if no digit follows;
leading zeros do not change the value.
-/

namespace ProbeGap

/-! ## §1. Where digits end -/

/-- A text that does not go on with a digit. -/
def EndsDigits (s : List Char) : Prop :=
  ∀ c ∈ s.head?, c.isDigit = false

@[simp] theorem endsDigits_nil : EndsDigits [] := by
  simp [EndsDigits]

@[simp] theorem endsDigits_cons {c : Char} {s : List Char} :
    EndsDigits (c :: s) ↔ c.isDigit = false := by
  simp [EndsDigits]

theorem takeWhile_isDigit_eq_nil {s : List Char} (h : EndsDigits s) :
    s.takeWhile Char.isDigit = [] := by
  cases s with
  | nil => rfl
  | cons c s => simp [endsDigits_cons.mp h]

theorem dropWhile_isDigit_eq_self {s : List Char} (h : EndsDigits s) :
    s.dropWhile Char.isDigit = s := by
  cases s with
  | nil => rfl
  | cons c s => simp [endsDigits_cons.mp h]

/-- Digits are taken as far as they go. -/
theorem spanDigits_append {ds rest : List Char} (hds : ∀ c ∈ ds, c.isDigit = true)
    (hrest : EndsDigits rest) : spanDigits (ds ++ rest) = (ds, rest) := by
  unfold spanDigits
  rw [List.takeWhile_append_of_pos hds, List.dropWhile_append_of_pos hds,
    takeWhile_isDigit_eq_nil hrest, dropWhile_isDigit_eq_self hrest, List.append_nil]

/-! ## §2. Leading zeros -/

theorem digits_ne_nil (n : Nat) : digits n ≠ [] :=
  Nat.toDigits_ne_nil

/-- A positive number does not start with a zero. -/
theorem exists_digits_eq_cons {n : Nat} (h : 0 < n) :
    ∃ d ds, digits n = d :: ds ∧ d ≠ '0' := by
  -- The last digit is split off; the first one is that of a smaller, still positive number.
  induction n using Nat.strongRecOn with
  | ind n ih =>
    unfold digits
    rw [Nat.toDigits_eq_if (by decide)]
    by_cases hsmall : n < 10
    · rw [if_pos hsmall]
      refine ⟨n.digitChar, [], rfl, ?_⟩
      have hcases : ∀ m : Fin 10, 0 < m.val → m.val.digitChar ≠ '0' := by decide
      exact hcases ⟨n, hsmall⟩ h
    · rw [if_neg hsmall]
      obtain ⟨d, ds, hds, hd⟩ := ih (n / 10) (by omega) (by omega)
      unfold digits at hds
      exact ⟨d, ds ++ [(n % 10).digitChar], by rw [hds, List.cons_append], hd⟩

theorem isDigit_of_mem_paddedDigits {width n : Nat} {c : Char}
    (h : c ∈ paddedDigits width n) : c.isDigit = true := by
  rcases List.mem_append.mp h with hzero | hdigit
  · rw [List.eq_of_mem_replicate hzero]
    rfl
  · exact isDigit_of_mem_digits hdigit

theorem paddedDigits_ne_nil (width n : Nat) : paddedDigits width n ≠ [] :=
  List.append_ne_nil_of_right_ne_nil _ (digits_ne_nil n)

/-- Leading zeros do not change the value. -/
@[simp] theorem valueOfDigits_paddedDigits (width n : Nat) :
    valueOfDigits (paddedDigits width n) = n := by
  unfold valueOfDigits paddedDigits
  rw [Nat.ofDigitChars_append, Nat.ofDigitChars_replicate_zero, Nat.mul_zero]
  exact valueOfDigits_digits n

theorem length_paddedDigits_eq_max (width n : Nat) :
    (paddedDigits width n).length = max width (digits n).length := by
  unfold paddedDigits
  rw [List.length_append, List.length_replicate]
  omega

/-- Digits do not take more room than the numbers of that many digits. -/
theorem length_paddedDigits_le {width room n : Nat} (hroom : 0 < room) (hwidth : width ≤ room)
    (h : n < Nat.pow 10 room) : (paddedDigits width n).length ≤ room := by
  have hle : (digits n).length ≤ room := (Nat.length_toDigits_le_iff (by decide) hroom).mpr h
  rw [length_paddedDigits_eq_max]
  exact Nat.max_le.mpr ⟨hwidth, hle⟩

/-- A number that fits fills its width exactly. -/
theorem length_paddedDigits {width n : Nat} (hwidth : 0 < width) (h : n < Nat.pow 10 width) :
    (paddedDigits width n).length = width := by
  apply Nat.le_antisymm (length_paddedDigits_le hwidth (Nat.le_refl width) h)
  rw [length_paddedDigits_eq_max]
  exact Nat.le_max_left width _

end ProbeGap
