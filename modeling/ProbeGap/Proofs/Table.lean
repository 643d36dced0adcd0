import ProbeGap.Numeric.Count
import ProbeGap.Table

/-!
# Look-up in ordered tables

The entries of a table are its view, and look-up is how it is used. This module ties the
two together: a key is found with a value exactly if the pair is an entry, and a change
under one key is seen under that key and under no other.

Grouping is then described by look-up alone. The group of a key lists the members with
that key in list order, and a key without members has no group.

## Contents

  * `get?_update_self`, `get?_update_of_ne`: a change is local to its key.
  * `get?_eq_some_iff`: look-up and entries agree.
  * `eq_of_get?_eq`: a table is determined by what look-up finds.
  * `get?_groupBy_eq_some_iff`: the groups of a list, by filtering.
  * `flatten_groupBy_perm`: the groups hold every member once.
-/

namespace ProbeGap

variable {κ α β : Type} [Key κ]

/-! ## §1. Look-up in entries -/

/-- A change is seen under its own key. -/
theorem lookupEntries_alterEntries_self (key : κ) (f : Option α → α)
    (entries : List (κ × α)) :
    lookupEntries key (alterEntries key f entries) = some (f (lookupEntries key entries)) := by
  induction entries with
  | nil =>
    have hirrefl := Key.irrefl key
    simp [alterEntries, lookupEntries, hirrefl]
  | cons head rest ih =>
    obtain ⟨k, v⟩ := head
    have hirrefl := Key.irrefl key
    simp only [alterEntries]
    by_cases hlt : key < k
    · simp [lookupEntries, hlt, hirrefl]
    · by_cases hgt : k < key
      · simp [lookupEntries, hlt, hgt, ih]
      · simp [lookupEntries, hlt, hgt]

/-- A change is not seen under another key. -/
theorem lookupEntries_alterEntries_of_ne {key other : κ} (hne : other ≠ key)
    (f : Option α → α) (entries : List (κ × α)) :
    lookupEntries other (alterEntries key f entries) = lookupEntries other entries := by
  induction entries with
  | nil =>
    have hsplit : other < key ∨ key < other := by
      by_cases hlt : other < key
      · exact Or.inl hlt
      · by_cases hgt : key < other
        · exact Or.inr hgt
        · exact absurd (Key.connected hlt hgt) hne
    rcases hsplit with hlt | hgt
    · simp [alterEntries, lookupEntries, hlt]
    · simp [alterEntries, lookupEntries, hgt]
  | cons head rest ih =>
    obtain ⟨k, v⟩ := head
    simp only [alterEntries]
    by_cases hlt : key < k
    · rw [if_pos hlt]
      by_cases ho : other < key
      · have hok : other < k := Key.trans ho hlt
        simp [lookupEntries, ho, hok]
      · by_cases hko : key < other
        · simp [lookupEntries, ho, hko]
        · exact absurd (Key.connected ho hko) hne
    · rw [if_neg hlt]
      by_cases hgt : k < key
      · rw [if_pos hgt]
        simp only [lookupEntries, ih]
      · -- The changed entry is the head, and `other` is not its key.
        have hk : k = key := Key.connected hgt hlt
        subst hk
        rw [if_neg hgt]
        by_cases ho : other < k
        · simp [lookupEntries, ho]
        · by_cases hko : k < other
          · simp [lookupEntries, ho, hko]
          · exact absurd (Key.connected ho hko) hne

/-- In ascending entries a key is found with a value exactly if the pair is an entry. -/
theorem lookupEntries_eq_some_iff {key : κ} {value : α} {entries : List (κ × α)}
    (h : entries.Pairwise (·.1 < ·.1)) :
    lookupEntries key entries = some value ↔ (key, value) ∈ entries := by
  induction entries with
  | nil => simp [lookupEntries]
  | cons head rest ih =>
    obtain ⟨k, v⟩ := head
    obtain ⟨hhead, hrest⟩ := List.pairwise_cons.mp h
    have hnot : ¬ k < key → (key, value) ∉ rest := fun hge hmem => hge (hhead _ hmem)
    simp only [lookupEntries, List.mem_cons, Prod.mk.injEq]
    by_cases hlt : key < k
    · have hne : key ≠ k := fun heq => Key.irrefl k (heq ▸ hlt)
      have hge : ¬ k < key := fun hgt => Key.irrefl k (Key.trans hgt hlt)
      simp [hlt, hne, hnot hge]
    · by_cases hgt : k < key
      · have hne : key ≠ k := fun heq => Key.irrefl k (heq ▸ hgt)
        simp [hlt, hgt, hne, ih hrest]
      · have hk : key = k := Key.connected hlt hgt
        subst hk
        simp [hlt, hnot hgt, eq_comm]

theorem lookupEntries_cons_self (key : κ) (value : α) (rest : List (κ × α)) :
    lookupEntries key ((key, value) :: rest) = some value := by
  have hirrefl := Key.irrefl key
  simp [lookupEntries, hirrefl]

/-- An entry under another key does not matter to look-up in ascending entries. -/
theorem lookupEntries_cons_of_ne {key other : κ} {value : α} {rest : List (κ × α)}
    (h : ((other, value) :: rest).Pairwise (·.1 < ·.1)) (hne : key ≠ other) :
    lookupEntries key ((other, value) :: rest) = lookupEntries key rest := by
  have hrest := (List.pairwise_cons.mp h).2
  apply Option.ext
  intro found
  rw [lookupEntries_eq_some_iff h, lookupEntries_eq_some_iff hrest, List.mem_cons,
    Prod.mk.injEq]
  constructor
  · rintro (⟨hkey, -⟩ | hmem)
    · exact absurd hkey hne
    · exact hmem
  · exact Or.inr

/-- A list that ascends strictly under a key is determined by what is among its members. -/
theorem eq_of_ascending_of_mem_iff {key : β → κ} {s t : List β}
    (hs : s.Pairwise (key · < key ·)) (ht : t.Pairwise (key · < key ·))
    (h : ∀ e, e ∈ s ↔ e ∈ t) : s = t := by
  have hnodup : ∀ {entries : List β}, entries.Pairwise (key · < key ·) → entries.Nodup := by
    intro entries hentries
    refine hentries.imp ?_
    rintro a b hlt rfl
    exact Key.irrefl _ hlt
  have hperm : s.Perm t := (List.perm_ext_iff_of_nodup (hnodup hs) (hnodup ht)).mpr h
  refine hperm.eq_of_pairwise ?_ hs ht
  intro a b _ _ hab hba
  exact absurd (Key.trans hab hba) (Key.irrefl _)

/-- A member that is put in front of a group is one member more in all groups together. -/
theorem flatten_alterEntries_perm (key : κ) (x : β) (entries : List (κ × List β)) :
    ((alterEntries key (fun group => x :: group.getD []) entries).map (·.2)).flatten.Perm
      (x :: (entries.map (·.2)).flatten) := by
  induction entries with
  | nil => simp [alterEntries]
  | cons head rest ih =>
    obtain ⟨k, group⟩ := head
    simp only [alterEntries]
    by_cases hlt : key < k
    · simp [hlt]
    · by_cases hgt : k < key
      · -- The group is further on, and the member is moved in front of the groups before it.
        simp only [if_neg hlt, if_pos hgt, List.map_cons, List.flatten_cons]
        exact (ih.append_left group).trans List.perm_middle
      · simp [hlt, hgt]

/-! ## §2. Look-up in tables -/

namespace Table

@[simp] theorem get?_empty (key : κ) : (empty : Table κ α).get? key = none := rfl

@[simp] theorem get?_update_self (t : Table κ α) (key : κ) (f : Option α → α) :
    (t.update key f).get? key = some (f (t.get? key)) :=
  lookupEntries_alterEntries_self key f t.entries

theorem get?_update_of_ne (t : Table κ α) {key other : κ} (hne : other ≠ key)
    (f : Option α → α) : (t.update key f).get? other = t.get? other :=
  lookupEntries_alterEntries_of_ne hne f t.entries

@[simp] theorem get?_insert_self (t : Table κ α) (key : κ) (value : α) :
    (t.insert key value).get? key = some value := by
  unfold insert
  rw [get?_update_self]

theorem get?_insert_of_ne (t : Table κ α) {key other : κ} (hne : other ≠ key) (value : α) :
    (t.insert key value).get? other = t.get? other :=
  t.get?_update_of_ne hne _

/-- A key is found with a value exactly if the pair is an entry. -/
theorem get?_eq_some_iff {t : Table κ α} {key : κ} {value : α} :
    t.get? key = some value ↔ (key, value) ∈ t.entries :=
  lookupEntries_eq_some_iff t.ascending

theorem mem_keys_iff {t : Table κ α} {key : κ} :
    key ∈ t.keys ↔ ∃ value, t.get? key = some value := by
  unfold keys
  constructor
  · intro h
    obtain ⟨⟨k, v⟩, hmem, rfl⟩ := List.mem_map.mp h
    exact ⟨v, get?_eq_some_iff.mpr hmem⟩
  · rintro ⟨v, hv⟩
    exact List.mem_map.mpr ⟨(key, v), get?_eq_some_iff.mp hv, rfl⟩

/-- Tables that answer every look-up alike are equal. -/
theorem eq_of_get?_eq {s t : Table κ α} (h : ∀ key, s.get? key = t.get? key) : s = t := by
  have hentries : ∀ e, e ∈ s.entries ↔ e ∈ t.entries := by
    rintro ⟨key, value⟩
    rw [← get?_eq_some_iff, ← get?_eq_some_iff, h]
  exact Table.ext (eq_of_ascending_of_mem_iff s.ascending t.ascending hentries)

/-- Two changes under one key are one change. -/
theorem update_update (t : Table κ α) (key : κ) (f g : Option α → α) :
    (t.update key f).update key g = t.update key fun value => g (some (f value)) := by
  apply eq_of_get?_eq
  intro other
  by_cases hother : other = key
  · subst hother
    rw [get?_update_self, get?_update_self, get?_update_self]
  · rw [get?_update_of_ne _ hother, get?_update_of_ne _ hother, get?_update_of_ne _ hother]

/-- Changes under different keys commute. -/
theorem update_comm (t : Table κ α) {key key' : κ} (hne : key ≠ key') (f g : Option α → α) :
    (t.update key f).update key' g = (t.update key' g).update key f := by
  apply eq_of_get?_eq
  intro other
  by_cases hkey : other = key
  · subst hkey
    rw [get?_update_of_ne _ hne, get?_update_self, get?_update_self, get?_update_of_ne _ hne]
  · rw [get?_update_of_ne _ hkey]
    by_cases hkey' : other = key'
    · subst hkey'
      rw [get?_update_self, get?_update_self, get?_update_of_ne _ hkey]
    · rw [get?_update_of_ne _ hkey', get?_update_of_ne _ hkey', get?_update_of_ne _ hkey]

/-- The keys ascend strictly, so none of them is listed twice. -/
theorem keys_ascending (t : Table κ α) : t.keys.Pairwise (· < ·) :=
  List.pairwise_map.mpr t.ascending

theorem contains_iff {t : Table κ α} {key : κ} :
    t.contains key = true ↔ ∃ value, t.get? key = some value := by
  unfold contains
  exact Option.isSome_iff_exists

theorem contains_eq_false_iff {t : Table κ α} {key : κ} :
    t.contains key = false ↔ t.get? key = none := by
  unfold contains
  rw [Option.isSome_eq_false_iff, Option.isNone_iff_eq_none]

/-- The keys that two tables share come in the same order from either. -/
theorem filter_keys_comm (s : Table κ α) (t : Table κ β) :
    s.keys.filter t.contains = t.keys.filter s.contains := by
  refine eq_of_ascending_of_mem_iff (s.keys_ascending.filter _) (t.keys_ascending.filter _) ?_
  intro key
  simp [mem_keys_iff, contains_iff, and_comm]

@[simp] theorem get?_map (f : α → β) (t : Table κ α) (key : κ) :
    (t.map f).get? key = (t.get? key).map f := by
  have hentries : ∀ entries : List (κ × α),
      lookupEntries key (entries.map fun e => (e.1, f e.2))
        = (lookupEntries key entries).map f := by
    intro entries
    induction entries with
    | nil => rfl
    | cons head rest ih =>
      simp only [List.map_cons, lookupEntries, ih]
      split
      · rfl
      · split <;> rfl
  exact hentries t.entries

/-! ## §3. Groups -/

section groups

variable [DecidableEq κ]

/-- What look-up finds in a grouping: the members with the key, if there are any. -/
theorem get?_groupBy (key : α → κ) (xs : List α) (k : κ) :
    (groupBy key xs).get? k =
      if xs.filter (key · = k) = [] then none else some (xs.filter (key · = k)) := by
  induction xs with
  | nil => simp
  | cons x xs ih =>
    rw [groupBy_cons]
    by_cases hk : key x = k
    · subst hk
      rw [get?_update_self, ih]
      by_cases hempty : xs.filter (key · = key x) = []
      · simp [hempty]
      · simp [hempty]
    · rw [get?_update_of_ne _ (Ne.symm hk), ih]
      simp [hk]

/-- A group is there if it has members, and then holds all of them in list order. -/
theorem get?_groupBy_eq_some_iff {key : α → κ} {xs : List α} {k : κ} {group : List α} :
    (groupBy key xs).get? k = some group ↔ group ≠ [] ∧ group = xs.filter (key · = k) := by
  rw [get?_groupBy]
  by_cases hempty : xs.filter (key · = k) = []
  · rw [if_pos hempty, hempty]
    simp
  · rw [if_neg hempty]
    constructor
    · intro h
      have hg := Option.some.inj h
      exact ⟨hg ▸ hempty, hg.symm⟩
    · rintro ⟨-, rfl⟩
      rfl

/-- One more member at the end of the list goes to the end of its group. -/
theorem groupBy_append_singleton (key : α → κ) (xs : List α) (x : α) :
    groupBy key (xs ++ [x]) =
      (groupBy key xs).update (key x) fun group => group.getD [] ++ [x] := by
  apply eq_of_get?_eq
  intro k
  by_cases hk : k = key x
  · subst hk
    rw [get?_update_self, get?_groupBy, get?_groupBy]
    by_cases hempty : xs.filter (key · = key x) = []
    · simp [hempty]
    · simp [hempty]
  · -- Under another key nothing is added.
    have hne : key x ≠ k := Ne.symm hk
    rw [get?_update_of_ne _ hk, get?_groupBy, get?_groupBy]
    simp [hne]

end groups

/-- One behind the other, the groups are the members in another order. -/
theorem flatten_groupBy_perm (key : α → κ) (xs : List α) :
    (groupBy key xs).values.flatten.Perm xs := by
  induction xs with
  | nil => exact List.Perm.refl []
  | cons x xs ih =>
    rw [groupBy_cons]
    exact (flatten_alterEntries_perm (key x) x _).trans (ih.cons x)

/-- The groups together hold every member once. -/
theorem total_length_groupBy (key : α → κ) (xs : List α) :
    total ((groupBy key xs).values.map (·.length)) = xs.length := by
  have hflatten : ∀ groups : List (List α),
      total (groups.map (·.length)) = groups.flatten.length := by
    intro groups
    induction groups with
    | nil => rfl
    | cons group groups ih => simp [ih]
  rw [hflatten, (flatten_groupBy_perm key xs).length_eq]

end Table
end ProbeGap
