/-!
# Sorting

Lists are sorted by inserting their values one by one. Values that the order does not
tell apart keep their places relative to each other. The sorted list has the same values
(`sortBy_perm`), and if the order is total and transitive, each value is followed by none
that is before it (`pairwise_sortBy`).
-/

namespace ProbeGap

variable {α : Type}

/-- Put a value into a sorted list, in front of those that may follow it. -/
def insertSorted (le : α → α → Bool) (x : α) : List α → List α
  | [] => [x]
  | y :: ys => if le x y then x :: y :: ys else y :: insertSorted le x ys

/-- The values of a list in ascending order. -/
def sortBy (le : α → α → Bool) (xs : List α) : List α :=
  xs.foldr (insertSorted le) []

@[simp] theorem sortBy_nil (le : α → α → Bool) : sortBy le [] = [] := rfl

@[simp] theorem sortBy_cons (le : α → α → Bool) (x : α) (xs : List α) :
    sortBy le (x :: xs) = insertSorted le x (sortBy le xs) := rfl

/-- An insertion adds the value and nothing else. -/
theorem insertSorted_perm (le : α → α → Bool) (x : α) (ys : List α) :
    (insertSorted le x ys).Perm (x :: ys) := by
  induction ys with
  | nil => exact .refl _
  | cons y ys ih =>
    simp only [insertSorted]
    split
    case isTrue => exact .refl _
    case isFalse => exact (ih.cons y).trans (.swap x y ys)

/-- Sorting keeps the values. -/
theorem sortBy_perm (le : α → α → Bool) (xs : List α) : (sortBy le xs).Perm xs := by
  induction xs with
  | nil => exact .refl _
  | cons x xs ih => exact (insertSorted_perm le x _).trans (ih.cons x)

@[simp] theorem length_sortBy (le : α → α → Bool) (xs : List α) :
    (sortBy le xs).length = xs.length :=
  (sortBy_perm le xs).length_eq

/-- An insertion keeps the order, if that is total and transitive. -/
theorem pairwise_insertSorted {le : α → α → Bool}
    (total : ∀ a b, le a b = true ∨ le b a = true)
    (trans : ∀ a b c, le a b = true → le b c = true → le a c = true) (x : α) {ys : List α}
    (h : ys.Pairwise (le · · = true)) : (insertSorted le x ys).Pairwise (le · · = true) := by
  induction ys with
  | nil => exact List.pairwise_singleton _ _
  | cons y ys ih =>
    have ⟨hy, hys⟩ := List.pairwise_cons.mp h
    simp only [insertSorted]
    split
    case isTrue hxy =>
      refine List.pairwise_cons.mpr ⟨fun z hz => ?_, h⟩
      rcases List.mem_cons.mp hz with rfl | hz
      · exact hxy
      · exact trans x y z hxy (hy z hz)
    case isFalse hxy =>
      refine List.pairwise_cons.mpr ⟨fun z hz => ?_, ih hys⟩
      rcases List.mem_cons.mp ((insertSorted_perm le x ys).mem_iff.mp hz) with rfl | hz
      · exact (total y z).resolve_right hxy
      · exact hy z hz

/-- A sorted list is in order, if that is total and transitive. -/
theorem pairwise_sortBy {le : α → α → Bool}
    (total : ∀ a b, le a b = true ∨ le b a = true)
    (trans : ∀ a b c, le a b = true → le b c = true → le a c = true) (xs : List α) :
    (sortBy le xs).Pairwise (le · · = true) := by
  induction xs with
  | nil => exact .nil
  | cons x xs ih => exact pairwise_insertSorted total trans x ih

end ProbeGap
