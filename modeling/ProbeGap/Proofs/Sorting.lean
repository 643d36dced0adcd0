import ProbeGap.Sorting
import ProbeGap.Table

/-!
# What a sorted list is determined by

The group of a key in a list lists the members with that key in list order. A list that
ascends under the keys is determined by its groups (`eq_of_ascending_of_groups`), so it does
not tell how the groups were mixed before they were put in order. Sorting keeps every group as
it is (`filter_sortBy`). And where the order of the values tells all of them apart, the sorted
list does not tell how they were ordered before (`sortBy_eq_of_perm`).
-/

namespace ProbeGap

/-! ## §1. Lists with the same groups -/

section groups

variable {κ α : Type} [DecidableEq κ] {key : α → κ} {x y : α} {xs ys : List α}

/-- Two lists that begin with the same key and have the same groups begin with the same
member, and their tails have the same groups. -/
theorem eq_and_groups_of_cons (hkey : key x = key y)
    (hgroups : ∀ k, (x :: xs).filter (key · = k) = (y :: ys).filter (key · = k)) :
    x = y ∧ ∀ k, xs.filter (key · = k) = ys.filter (key · = k) := by
  have hown := hgroups (key x)
  rw [List.filter_cons_of_pos (by simp), List.filter_cons_of_pos (by simp [hkey])] at hown
  refine ⟨(List.cons.inj hown).1, fun k => ?_⟩
  -- A group of the tail is the whole group, or the whole group without its first.
  have hk := hgroups k
  by_cases hxk : key x = k
  · rw [List.filter_cons_of_pos (by simp [hxk]),
      List.filter_cons_of_pos (by simp [← hkey, hxk])] at hk
    exact (List.cons.inj hk).2
  · rwa [List.filter_cons_of_neg (by simp [hxk]),
      List.filter_cons_of_neg (by simp [← hkey, hxk])] at hk

/-- A member has a group, so lists with the same groups have the same members. -/
theorem mem_of_groups (hgroups : ∀ k, xs.filter (key · = k) = ys.filter (key · = k))
    (hx : x ∈ xs) : x ∈ ys := by
  have hgroup : x ∈ xs.filter (key · = key x) :=
    List.mem_filter.mpr ⟨hx, decide_eq_true rfl⟩
  rw [hgroups] at hgroup
  exact (List.mem_filter.mp hgroup).1

end groups

/-! ## §2. Ascending lists -/

section ascending

variable {κ α : Type} [Key κ] {key : α → κ}

/-- No member of an ascending list has a key below that of the first. -/
theorem not_key_lt_head {x y : α} {ys : List α}
    (hys : (y :: ys).Pairwise fun a b => ¬ key b < key a) (hx : x ∈ y :: ys) :
    ¬ key x < key y := by
  rcases List.mem_cons.mp hx with rfl | htail
  · exact Key.irrefl _
  · exact (List.pairwise_cons.mp hys).1 x htail

/-- Ascending lists with the same groups are equal. -/
theorem eq_of_ascending_of_groups [DecidableEq κ] {xs ys : List α}
    (hxs : xs.Pairwise fun a b => ¬ key b < key a)
    (hys : ys.Pairwise fun a b => ¬ key b < key a)
    (hgroups : ∀ k, xs.filter (key · = k) = ys.filter (key · = k)) : xs = ys := by
  induction xs generalizing ys with
  | nil =>
    cases ys with
    | nil => rfl
    | cons y ys =>
      have hnil : y ∈ ([] : List α) :=
        mem_of_groups (fun k => (hgroups k).symm) List.mem_cons_self
      cases hnil
  | cons x xs ih =>
    cases ys with
    | nil =>
      have hnil : x ∈ ([] : List α) := mem_of_groups hgroups List.mem_cons_self
      cases hnil
    | cons y ys =>
      -- Each head is a member of the other list, so neither key is below the other.
      have hx : x ∈ y :: ys := mem_of_groups hgroups List.mem_cons_self
      have hy : y ∈ x :: xs := mem_of_groups (fun k => (hgroups k).symm) List.mem_cons_self
      have hkey : key x = key y :=
        Key.connected (not_key_lt_head hys hx) (not_key_lt_head hxs hy)
      obtain ⟨hhead, htails⟩ := eq_and_groups_of_cons hkey hgroups
      rw [hhead, ih (List.pairwise_cons.mp hxs).2 (List.pairwise_cons.mp hys).2 htails]

end ascending

/-! ## §3. Sorting -/

section sorting

variable {α β : Type}

theorem insertSorted_map (le : β → β → Bool) (f : α → β) (x : α) (ys : List α) :
    insertSorted le (f x) (ys.map f) =
      (insertSorted (fun a b => le (f a) (f b)) x ys).map f := by
  induction ys with
  | nil => rfl
  | cons y ys ih =>
    simp only [List.map_cons, insertSorted]
    by_cases hxy : le (f x) (f y) = true
    · rw [if_pos hxy, if_pos hxy, List.map_cons, List.map_cons]
    · rw [if_neg hxy, if_neg hxy, List.map_cons, ih]

/-- Sorting looks at nothing but what is compared. -/
theorem sortBy_map (le : β → β → Bool) (f : α → β) (xs : List α) :
    sortBy le (xs.map f) = (sortBy (fun a b => le (f a) (f b)) xs).map f := by
  induction xs with
  | nil => rfl
  | cons x xs ih => rw [List.map_cons, sortBy_cons, sortBy_cons, ih, insertSorted_map]

/-- A member is put in front of those of its class, if the order does not tell them apart. -/
theorem filter_insertSorted {le : α → α → Bool} {p : α → Bool}
    (htie : ∀ a b, p a = true → p b = true → le a b = true) (x : α) (ys : List α) :
    (insertSorted le x ys).filter p = (x :: ys).filter p := by
  induction ys with
  | nil => rfl
  | cons y ys ih =>
    rw [insertSorted]
    by_cases hxy : le x y = true
    · rw [if_pos hxy]
    · -- `x` goes behind `y`, so the two are not in the class together.
      have happart : ¬ (p x = true ∧ p y = true) := fun h => hxy (htie x y h.1 h.2)
      rw [if_neg hxy, List.filter_cons, ih]
      by_cases hx : p x = true
      · have hy : ¬ p y = true := fun hy => happart ⟨hx, hy⟩
        simp [hx, hy]
      · simp [hx, List.filter_cons]

/-- Sorting keeps the list order of members that the order does not tell apart. -/
theorem filter_sortBy {le : α → α → Bool} {p : α → Bool}
    (htie : ∀ a b, p a = true → p b = true → le a b = true) (xs : List α) :
    (sortBy le xs).filter p = xs.filter p := by
  induction xs with
  | nil => rfl
  | cons x xs ih =>
    rw [sortBy_cons, filter_insertSorted htie, List.filter_cons, List.filter_cons, ih]

/-- The sorted list does not depend on the order of the list, if the order of the values tells
all of them apart. -/
theorem sortBy_eq_of_perm {le : α → α → Bool}
    (total : ∀ a b, le a b = true ∨ le b a = true)
    (trans : ∀ a b c, le a b = true → le b c = true → le a c = true) {xs ys : List α}
    (antisymm : ∀ a ∈ xs, ∀ b ∈ xs, le a b = true → le b a = true → a = b)
    (hperm : xs.Perm ys) : sortBy le xs = sortBy le ys := by
  have hsorted : (sortBy le xs).Perm (sortBy le ys) :=
    (sortBy_perm le xs).trans (hperm.trans (sortBy_perm le ys).symm)
  refine hsorted.eq_of_pairwise ?_ (pairwise_sortBy total trans xs)
    (pairwise_sortBy total trans ys)
  intro a b ha hb
  have hax : a ∈ xs := (sortBy_perm le xs).mem_iff.mp ha
  have hbx : b ∈ xs := hperm.mem_iff.mpr ((sortBy_perm le ys).mem_iff.mp hb)
  exact antisymm a hax b hbx

end sorting

/-! ## §4. Sorting by keys -/

section keys

variable {κ α : Type} [Key κ]

theorem not_key_lt_total (a b : κ) : ¬ b < a ∨ ¬ a < b := by
  by_cases hlt : b < a
  · exact Or.inr fun hgt => Key.irrefl _ (Key.trans hlt hgt)
  · exact Or.inl hlt

theorem not_key_lt_trans {a b c : κ} (hab : ¬ b < a) (hbc : ¬ c < b) : ¬ c < a := by
  intro hca
  -- `b` is neither below `c` nor above it, so it is `c`.
  have hnot : ¬ b < c := fun hlt => hab (Key.trans hlt hca)
  have heq : b = c := Key.connected hnot hbc
  exact hab (heq ▸ hca)

/-- An ascending list is what each list with the same groups is sorted to. -/
theorem eq_sortBy_of_groups [DecidableEq κ] {key : α → κ} {xs ys : List α}
    (hxs : xs.Pairwise fun a b => ¬ key b < key a)
    (hgroups : ∀ k, xs.filter (key · = k) = ys.filter (key · = k)) :
    xs = sortBy (fun a b => !decide (key b < key a)) ys := by
  have hsorted : (sortBy (fun a b => !decide (key b < key a)) ys).Pairwise
      fun a b => (!decide (key b < key a)) = true := by
    apply pairwise_sortBy
    · intro a b
      simpa using not_key_lt_total (key a) (key b)
    · intro a b c
      simpa using not_key_lt_trans
  apply eq_of_ascending_of_groups hxs (hsorted.imp fun h => by simpa using h)
  intro k
  rw [hgroups, filter_sortBy]
  intro a b ha hb
  have hsame : key a = key b := (of_decide_eq_true ha).trans (of_decide_eq_true hb).symm
  simp [hsame, Key.irrefl]

end keys

end ProbeGap
