/-!
# Counts and digits

Counts and identifiers are numbers of 64 bits. They are kept as natural numbers or as
words; this module holds their range, and the sum of a list of counts. In texts, natural
numbers are written in ASCII digits, with or without leading zeros, and read back.
-/

namespace ProbeGap

/-! ## §1. Counts -/

/-- Counts are below `2 ^ 64`. -/
def countLimit : Nat := 18446744073709551616

/-- Whole numbers with a sign are not below `-2 ^ 63`, and below `2 ^ 63`. -/
def signedLimit : Nat := 9223372036854775808

/-- The greatest count. -/
def maxCount : Nat := countLimit - 1

/-- The sum of counts. -/
def total (counts : List Nat) : Nat :=
  counts.foldr (· + ·) 0

@[simp] theorem total_nil : total [] = 0 := rfl

@[simp] theorem total_cons (n : Nat) (ns : List Nat) : total (n :: ns) = n + total ns := rfl

/-- The sum of the counts of two lists. -/
@[simp] theorem total_append (ms ns : List Nat) : total (ms ++ ns) = total ms + total ns := by
  induction ms with
  | nil => simp
  | cons m ms ih => simp [ih, Nat.add_assoc]

/-! ## §2. Decimal digits -/

/-- The decimal digits of a number, without leading zeros. -/
def digits (n : Nat) : List Char :=
  Nat.toDigits 10 n

/-- The decimal digits of a number, filled up with zeros to at least `width` of them. -/
def paddedDigits (width n : Nat) : List Char :=
  List.replicate (width - (digits n).length) '0' ++ digits n

/-- The number that a text of digits denotes. -/
def valueOfDigits (s : List Char) : Nat :=
  Nat.ofDigitChars 10 s 0

/-- Reading the digits of a number gives the number. -/
@[simp] theorem valueOfDigits_digits (n : Nat) : valueOfDigits (digits n) = n :=
  Nat.ofDigitChars_toDigits (by decide) (by decide)

/-- A number has nothing but digits. -/
theorem isDigit_of_mem_digits {n : Nat} {c : Char} (h : c ∈ digits n) : c.isDigit = true :=
  Nat.isDigit_of_mem_toDigits (by decide) (by decide) h

/-- The digits a text starts with, and the rest of it. -/
def spanDigits (s : List Char) : List Char × List Char :=
  (s.takeWhile Char.isDigit, s.dropWhile Char.isDigit)

/-- The text of a number. -/
def decimal (n : Nat) : String :=
  String.ofList (digits n)

end ProbeGap
