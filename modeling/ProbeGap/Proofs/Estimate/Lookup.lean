import ProbeGap.Estimate.Record

/-!
# Finding a row by halving

The row of a link is found by halving a range of the rows until one is left. The search
keeps two facts: every row behind the range is beyond the wanted link, and the first row of
the range is not beyond it, unless the range still starts at the first row of all. When one
row is left, no other can be the wanted one, because the links of the rows ascend strictly.

## Contents

  * `Narrowed`: the two facts; `Narrowed.lower` and `Narrowed.upper` keep them at a middle row.
  * `narrowed_narrow`: the result of the search, a range of one row.
  * `ExperimentEstimates.get?_eq_some_iff`: the look-up finds exactly the row of the link.
-/

namespace ProbeGap

/-! ## §1. Ranges -/

/-- All rows from `stop` on are beyond the link, and the row at `base` is not, unless it is
the first one. -/
structure Narrowed (rows : Array LinkRecord) (link : LinkId) (base stop : Nat) : Prop where
  below : ∀ (h : base < rows.size), base = 0 ∨ ¬ link < rows[base].link
  above : ∀ i (h : i < rows.size), stop ≤ i → link < rows[i].link

variable {rows : Array LinkRecord} {link : LinkId}

theorem lt_link_of_le (hrows : rows.toList.Pairwise (·.link < ·.link)) {i j : Nat}
    (hi : i < rows.size) (hj : j < rows.size) (hij : i ≤ j) (h : link < rows[i].link) :
    link < rows[j].link := by
  rcases Nat.lt_or_eq_of_le hij with hlt | heq
  · have hpair := List.pairwise_iff_getElem.mp hrows i j (by simpa using hi)
      (by simpa using hj) hlt
    simp only [Array.getElem_toList] at hpair
    exact UInt64.lt_trans h hpair
  · subst heq
    exact h

/-- A row beyond the link ends the range, with all that follow it. -/
theorem Narrowed.lower (hrows : rows.toList.Pairwise (·.link < ·.link)) {base stop middle : Nat}
    (h : Narrowed rows link base stop) (hmiddle : middle < rows.size)
    (hlt : link < rows[middle].link) : Narrowed rows link base middle := by
  refine ⟨h.below, fun i hi hle => ?_⟩
  exact lt_link_of_le hrows hmiddle hi hle hlt

/-- A row that is not beyond the link begins the range. -/
theorem Narrowed.upper {base stop middle : Nat} (h : Narrowed rows link base stop)
    (hmiddle : middle < rows.size) (hnot : ¬ link < rows[middle].link) :
    Narrowed rows link middle stop :=
  ⟨fun _ => Or.inr hnot, h.above⟩

theorem Narrowed.extend {base stop : Nat} (h : Narrowed rows link base stop) (stop' : Nat)
    (hle : stop ≤ stop') : Narrowed rows link base stop' :=
  ⟨h.below, fun i hi hstop => h.above i hi (Nat.le_trans hle hstop)⟩

/-- The search ends with a range of one row. -/
theorem narrowed_narrow (hrows : rows.toList.Pairwise (·.link < ·.link))
    {fuel base size : Nat} (h : Narrowed rows link base (base + size))
    (hfits : base + size ≤ rows.size) (hsize : 0 < size) (hfuel : size ≤ fuel + 1) :
    narrow rows link fuel base size < rows.size ∧
      Narrowed rows link (narrow rows link fuel base size)
        (narrow rows link fuel base size + 1) := by
  -- Half of a range is shorter than the range, so a unit of fuel a round is enough.
  induction fuel generalizing base size with
  | zero =>
    have hone : size = 1 := by omega
    subst hone
    simp only [narrow]
    exact ⟨by omega, h⟩
  | succ fuel ih =>
    unfold narrow
    by_cases hsmall : size ≤ 1
    · have hone : size = 1 := by omega
      subst hone
      rw [if_pos hsmall]
      exact ⟨by omega, h⟩
    · have hmiddle : base + size / 2 < rows.size := by omega
      rw [if_neg hsmall]
      dsimp only
      rw [Array.getElem?_eq_getElem hmiddle]
      by_cases hlt : link < rows[base + size / 2].link
      · have hlower := (h.lower hrows hmiddle hlt).extend (base + (size - size / 2)) (by omega)
        simp only [hlt, decide_true, if_true]
        exact ih hlower (by omega) (by omega) (by omega)
      · have hupper := (h.upper hmiddle hlt).extend (base + size / 2 + (size - size / 2))
          (by omega)
        simp only [hlt, decide_false, Bool.false_eq_true, if_false]
        have hfits' : base + size / 2 + (size - size / 2) ≤ rows.size := by omega
        exact ih hupper hfits' (by omega) (by omega)

/-! ## §2. Look-up -/

/-- The row at the end of the search is the one of the link, if any row is. -/
theorem getElem?_narrow_of_mem (hrows : rows.toList.Pairwise (·.link < ·.link))
    {row : LinkRecord} (hmem : row ∈ rows.toList) :
    rows[narrow rows row.link rows.size 0 rows.size]? = some row := by
  obtain ⟨i, hi, rfl⟩ := List.mem_iff_getElem.mp hmem
  simp only [Array.length_toList] at hi
  simp only [Array.getElem_toList]
  have hstart : Narrowed rows rows[i].link 0 (0 + rows.size) :=
    ⟨fun _ => Or.inl rfl, fun j hj hle => by omega⟩
  have hfuel : rows.size ≤ rows.size + 1 := by omega
  obtain ⟨hlt, hend⟩ := narrowed_narrow hrows hstart (by omega) (by omega) hfuel
  generalize narrow rows rows[i].link rows.size 0 rows.size = j at hlt hend
  rw [Array.getElem?_eq_getElem hlt]
  -- An earlier row cannot be the wanted one by `below`, a later one cannot by `above`.
  rcases Nat.lt_trichotomy i j with hij | rfl | hji
  · have hnot := (hend.below hlt).resolve_left (by omega)
    have hpair := List.pairwise_iff_getElem.mp hrows i j (by simpa using hi)
      (by simpa using hlt) hij
    exact absurd hpair hnot
  · rfl
  · exact absurd (hend.above i hi (by omega)) (UInt64.lt_irrefl _)

/-- Rows in ascending order are found under exactly their links. -/
theorem ExperimentEstimates.get?_eq_some_iff {e : ExperimentEstimates}
    (hrows : e.links.Pairwise (·.link < ·.link)) {row : LinkRecord} :
    e.get? link = some row ↔ row ∈ e.links ∧ row.link = link := by
  unfold ExperimentEstimates.get?
  dsimp only
  constructor
  · intro h
    split at h
    · next found hfound =>
      split at h
      · next hlink =>
        cases h
        have hmem := Array.mem_of_getElem? hfound
        exact ⟨by simpa using hmem, hlink⟩
      · cases h
    · cases h
  · rintro ⟨hmem, rfl⟩
    have hfound : e.links.toArray[narrow e.links.toArray row.link e.links.toArray.size 0
        e.links.toArray.size]? = some row := getElem?_narrow_of_mem hrows hmem
    rw [hfound]
    simp

end ProbeGap
