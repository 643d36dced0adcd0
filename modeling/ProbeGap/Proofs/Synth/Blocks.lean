import ProbeGap.Proofs.Synth.Drawing

/-!
# Generated samples come in blocks

Links are drawn one after the other from the same source, and a link is marked before the next
one is drawn. So the generated samples are blocks, one a link and each as long as was asked for,
and no block looks ahead: how many links follow makes no difference to it, neither to the words
that it takes from the source, nor to its flags and times (`generate_is_prefix_stable`).

How many words a sample takes is not fixed. A number of a range may take several, and whether a
jitter and a burst are drawn depends on the request and on the words. What carries the proof is
that a traversal of a list starts with a traversal of each of its beginnings (`mapM_beginning`),
whatever the single drawings do to the source.
-/

namespace ProbeGap

/-! ## §1. Beginnings of traversals -/

section traversals

variable {σ α β : Type} {f : α → Drawing σ β} {xs ys : List α} {zs : List β} {g g' : σ}

theorem length_of_mapM (h : xs.mapM f g = .ok (zs, g')) : zs.length = xs.length := by
  obtain ⟨pairs, hxs, hzs, -⟩ := Yields.of_mapM ⟨g, g', h⟩
  rw [← hxs, ← hzs, List.length_map, List.length_map]

/-- Among pairs that are numbered from zero on, a pair stands at its number. -/
theorem numbered_of_map_fst {n i : Nat} {pairs : List (Nat × β)} {pair : Nat × β}
    (h : pairs.map (·.1) = List.range n) (hpair : pairs[i]? = some pair) : pair.1 = i := by
  have hget : (pairs.map (·.1))[i]? = some pair.1 := by
    rw [List.getElem?_map, hpair]
    rfl
  rw [h] at hget
  obtain ⟨hlt, hnumber⟩ := List.getElem?_eq_some_iff.mp hget
  rw [← hnumber, List.getElem_range]

/-- The beginning of a traversal is a traversal of the beginning. -/
theorem mapM_beginning (h : (xs ++ ys).mapM f g = .ok (zs, g')) :
    ∃ g'', xs.mapM f g = .ok (zs.take xs.length, g'') := by
  rw [List.mapM_append] at h
  obtain ⟨⟨before, g₁⟩, hbefore, hrest⟩ := bind_eq_ok_iff.mp h
  obtain ⟨⟨after, g₂⟩, -, hpure⟩ := bind_eq_ok_iff.mp hrest
  cases hpure
  refine ⟨g₁, ?_⟩
  rw [← length_of_mapM hbefore, List.take_left]
  exact hbefore

end traversals

/-! ## §2. Lists of blocks -/

section flatten

variable {α : Type} {m n : Nat} {blocks : List (List α)}

theorem length_flatten_of_blocks (h : ∀ block ∈ blocks, block.length = m) :
    blocks.flatten.length = blocks.length * m := by
  induction blocks with
  | nil => simp
  | cons block blocks ih =>
    obtain ⟨hblock, hblocks⟩ := List.forall_mem_cons.mp h
    rw [List.flatten_cons, List.length_append, hblock, ih hblocks, List.length_cons, Nat.succ_mul,
      Nat.add_comm]

/-- Blocks of the same length start at multiples of it. -/
theorem drop_flatten_of_blocks (h : ∀ block ∈ blocks, block.length = m) :
    blocks.flatten.drop (n * m) = (blocks.drop n).flatten := by
  induction blocks generalizing n with
  | nil => simp
  | cons block blocks ih =>
    obtain ⟨rfl, hblocks⟩ := List.forall_mem_cons.mp h
    cases n with
    | zero => simp
    | succ n =>
      rw [Nat.succ_mul, Nat.add_comm, List.flatten_cons, List.drop_length_add_append, ih hblocks,
        List.drop_succ_cons]

theorem take_flatten_of_blocks (h : ∀ block ∈ blocks, block.length = m) :
    blocks.flatten.take (n * m) = (blocks.take n).flatten := by
  induction blocks generalizing n with
  | nil => simp
  | cons block blocks ih =>
    obtain ⟨rfl, hblocks⟩ := List.forall_mem_cons.mp h
    cases n with
    | zero => simp
    | succ n =>
      rw [Nat.succ_mul, Nat.add_comm, List.flatten_cons, List.take_length_add_append, ih hblocks,
        List.take_succ_cons, List.flatten_cons]

/-- The block with a given number, by the place where it starts. -/
theorem take_drop_flatten_of_blocks (h : ∀ block ∈ blocks, block.length = m) {block : List α}
    (hblock : blocks[n]? = some block) : (blocks.flatten.drop (n * m)).take m = block := by
  obtain ⟨hlt, rfl⟩ := List.getElem?_eq_some_iff.mp hblock
  rw [drop_flatten_of_blocks h, List.drop_eq_getElem_cons hlt, List.flatten_cons,
    ← h _ (List.getElem_mem hlt), List.take_left]

end flatten

/-! ## §3. Blocks -/

/-- All samples of the link with a given number: the observation of the link with the packets
that were asked for, as many as were asked for, a millisecond apart from its slot on. -/
structure IsBlock (spec : SynthSpec) (profile : Profile) (number : Nat)
    (block : List (Sample Float)) : Prop extends IsObservation spec profile number block where
  /-- Links are identified by their numbers, counted from one. -/
  identifier : (linkOfNumber number).toNat = number + 1
  count : block.length = spec.samplesPerLink
  packet : ∀ s ∈ block, s.length = spec.selection.packetSize
  times : ∃ slot, spec.start.addSeconds? number = some slot ∧
    ∀ i s, block[i]? = some s → ∃ t, slot.addMillis? i = some t ∧ s.timestamp = some t

section blocks

variable {σ : Type} [WordSource σ] {spec : SynthSpec} {profile : Profile} {g g' : σ}
  {samples : List (Sample Float)}

/-- What is drawn for a link is a block. -/
theorem isBlock_of_yields {number : Nat} {block : List (Sample Float)}
    (h : Yields (drawObservation spec profile number : Drawing σ (List (Sample Float))) block) :
    IsBlock spec profile number block := by
  obtain ⟨slot, hslot, pairs, hnumbers, hblock, hpairs⟩ := exists_drawn_of_yields h
  have hlength : pairs.length = spec.samplesPerLink := by
    rw [← List.length_map (·.1), hnumbers, List.length_range]
  -- A sample of the block is the drawn one with its number, but for its flag.
  have hdrawn : ∀ i s, block[i]? = some s → ∃ p time used, slot.addMillis? i = some time ∧
      s = { spec.sampleAt (linkOfNumber number) time p with used := used } := by
    intro i s hs
    rw [hblock, markCandidates_eq_markBy, markBy, List.map_map, List.getElem?_map] at hs
    obtain ⟨pair, hpair, rfl⟩ := Option.map_eq_some_iff.mp hs
    obtain ⟨p, time, -, htime, hpoint⟩ := hpairs pair (List.mem_of_getElem? hpair)
    rw [numbered_of_map_fst hnumbers hpair] at htime
    exact ⟨p, time, _, htime, by rw [← hpoint]; rfl⟩
  have hobservation := isObservation_of_yields h
  exact
    { hobservation with
      identifier := UInt64.toNat_ofNat_of_lt' hobservation.numbered
      count := by rw [hblock, length_markCandidates, List.length_map, hlength]
      packet := by
        intro s hs
        obtain ⟨i, hi⟩ := List.mem_iff_getElem?.mp hs
        obtain ⟨p, time, used, -, rfl⟩ := hdrawn i s hi
        rfl
      times := by
        refine ⟨slot, hslot, ?_⟩
        intro i s hs
        obtain ⟨p, time, used, htime, rfl⟩ := hdrawn i s hs
        exact ⟨time, htime, rfl⟩ }

/-- When a request is in order. -/
theorem SynthSpec.check_eq_ok_iff :
    spec.check profile = .ok () ↔
      (0 < spec.bandwidth ∧ spec.bandwidth < profile.bottleneck) ∧
        (0 ≤ spec.burstProbability ∧ spec.burstProbability ≤ 1) ∧
          0 < spec.links ∧ 0 < spec.samplesPerLink := by
  unfold SynthSpec.check
  split
  · rename_i hbandwidth
    simp [hbandwidth]
  · rename_i hbandwidth
    split
    · rename_i hburst
      simp [hburst]
    · rename_i hburst
      rw [Decidable.not_not] at hbandwidth hburst
      split
      · rename_i hempty
        simp only [reduceCtorEq, hbandwidth, hburst, true_and, false_iff]
        omega
      · rename_i hnonempty
        simp only [hbandwidth, hburst, true_and, true_iff]
        omega

/-- Samples are generated if the request is in order and every link can be drawn. -/
theorem generate_eq_ok_iff :
    generate profile spec g = .ok (samples, g') ↔
      spec.check profile = .ok () ∧ ∃ blocks,
        (List.range spec.links).mapM (drawObservation spec profile) g = .ok (blocks, g') ∧
          samples = blocks.flatten := by
  constructor
  · intro h
    obtain ⟨⟨_, g₁⟩, hcheck, hrest⟩ := bind_eq_ok_iff.mp h
    obtain ⟨⟨⟩, hok, hsame⟩ := bind_eq_ok_iff.mp hcheck
    cases hsame
    obtain ⟨⟨blocks, g₂⟩, hblocks, hpure⟩ := bind_eq_ok_iff.mp hrest
    cases hpure
    exact ⟨hok, blocks, hblocks, rfl⟩
  · intro h
    obtain ⟨hok, blocks, hblocks, hsamples⟩ := h
    refine bind_eq_ok_iff.mpr ⟨((), g), bind_eq_ok_iff.mpr ⟨(), hok, rfl⟩, ?_⟩
    refine bind_eq_ok_iff.mpr ⟨(blocks, g'), hblocks, ?_⟩
    rw [hsamples]
    rfl

/-- The drawings of the links give the blocks of the links. -/
theorem isBlock_of_mapM {blocks : List (List (Sample Float))} {number : Nat}
    {block : List (Sample Float)}
    (h : (List.range spec.links).mapM (drawObservation spec profile) g = .ok (blocks, g'))
    (hblock : blocks[number]? = some block) : IsBlock spec profile number block := by
  obtain ⟨pairs, hnumbers, rfl, hyields⟩ := Yields.of_mapM ⟨g, g', h⟩
  rw [List.getElem?_map] at hblock
  obtain ⟨pair, hpair, rfl⟩ := Option.map_eq_some_iff.mp hblock
  have hnumber := numbered_of_map_fst hnumbers hpair
  rw [← hnumber]
  exact isBlock_of_yields (hyields pair (List.mem_of_getElem? hpair))

/-- What is generated was in order, and asked for nothing that cannot be drawn. -/
theorem isDrawable_of_generate (h : generate profile spec g = .ok (samples, g')) :
    spec.check profile = .ok () ∧ spec.IsDrawable profile := by
  obtain ⟨hcheck, blocks, hblocks, -⟩ := generate_eq_ok_iff.mp h
  obtain ⟨-, -, hlinks, hsamples⟩ := SynthSpec.check_eq_ok_iff.mp hcheck
  have hlength : blocks.length = spec.links := by
    rw [length_of_mapM hblocks, List.length_range]
  -- The ranges are those of any sample, for example of the first one.
  obtain ⟨pairs, hnumbers, hvalues, hyields⟩ := Yields.of_mapM ⟨g, g', hblocks⟩
  obtain ⟨first, hfirst⟩ : ∃ first, first ∈ pairs := by
    apply List.exists_mem_of_length_pos
    rw [← List.length_map (·.1), hnumbers, List.length_range]
    exact hlinks
  obtain ⟨slot, -, drawn, hdrawn, -, hpoints⟩ := exists_drawn_of_yields (hyields first hfirst)
  obtain ⟨pair, hpair⟩ : ∃ pair, pair ∈ drawn := by
    apply List.exists_mem_of_length_pos
    rw [← List.length_map (·.1), hdrawn, List.length_range]
    exact hsamples
  obtain ⟨p, -, hp, -, -⟩ := hpoints pair hpair
  obtain ⟨hrates, hjitters⟩ := isRange_of_drawPoint hp
  refine ⟨hcheck, hrates, hjitters, ?_⟩
  intro number hnumber i hi
  rw [← hlength] at hnumber
  have hblock := isBlock_of_mapM hblocks (List.getElem?_eq_getElem hnumber)
  obtain ⟨slot, hslot, htimes⟩ := hblock.times
  rw [← hblock.count] at hi
  obtain ⟨t, ht, -⟩ := htimes i _ (List.getElem?_eq_getElem hi)
  rw [hslot, Option.bind_some, ht]
  rfl

/-- Whether samples are generated is decided by the request, if the words are not rejected
forever. -/
theorem exists_generate_iff {P : σ → Prop} (hsupplied : spec.IsSupplied profile P) (hg : P g) :
    (∃ samples g', generate profile spec g = .ok (samples, g')) ↔
      spec.check profile = .ok () ∧ spec.IsDrawable profile := by
  constructor
  · intro h
    obtain ⟨samples, g', h⟩ := h
    exact isDrawable_of_generate h
  · intro h
    obtain ⟨hcheck, hdrawable⟩ := h
    obtain ⟨-, -, -, hsamples⟩ := SynthSpec.check_eq_ok_iff.mp hcheck
    have hends : EndsFrom P ((List.range spec.links).mapM (drawObservation spec profile) :
        Drawing σ (List (List (Sample Float)))) :=
      .mapM fun number hnumber =>
        endsFrom_drawObservation hdrawable hsupplied (List.mem_range.mp hnumber) hsamples
    obtain ⟨blocks, g', hblocks, -⟩ := hends g hg
    exact ⟨blocks.flatten, g', generate_eq_ok_iff.mpr ⟨hcheck, blocks, hblocks, rfl⟩⟩

/-! ## §4. Fewer links -/

/-- What is generated are complete blocks, one for each link and in the order of the links. If
fewer links are asked for, then the first blocks are generated, and nothing in them is changed. -/
theorem generate_is_prefix_stable (h : generate profile spec g = .ok (samples, g')) :
    samples.length = spec.links * spec.samplesPerLink ∧
      (∀ number < spec.links, IsBlock spec profile number
        ((samples.drop (number * spec.samplesPerLink)).take spec.samplesPerLink)) ∧
      ∀ fewer, 0 < fewer → fewer < spec.links → ∃ g'',
        generate profile { spec with links := fewer } g
          = .ok (samples.take (fewer * spec.samplesPerLink), g'') := by
  obtain ⟨hcheck, blocks, hblocks, rfl⟩ := generate_eq_ok_iff.mp h
  have hlinks : blocks.length = spec.links := by
    rw [length_of_mapM hblocks, List.length_range]
  have hblock : ∀ number block, blocks[number]? = some block → IsBlock spec profile number block :=
    fun _ _ => isBlock_of_mapM hblocks
  have hcount : ∀ block ∈ blocks, block.length = spec.samplesPerLink := by
    intro block hmem
    obtain ⟨number, hnumber⟩ := List.mem_iff_getElem?.mp hmem
    exact (hblock number block hnumber).count
  refine ⟨?_, ?_, ?_⟩
  · rw [length_flatten_of_blocks hcount, hlinks]
  · intro number hnumber
    rw [← hlinks] at hnumber
    have hget := List.getElem?_eq_getElem hnumber
    rw [take_drop_flatten_of_blocks hcount hget]
    exact hblock number _ hget
  · intro fewer hpos hfewer
    -- The drawing of all links begins with that of the first ones, from the same state.
    have hrange : List.range spec.links
        = List.range fewer ++ (List.range (spec.links - fewer)).map (fewer + ·) := by
      rw [← List.range_add, Nat.add_sub_cancel' (Nat.le_of_lt hfewer)]
    rw [hrange] at hblocks
    obtain ⟨g'', hfirst⟩ := mapM_beginning hblocks
    rw [List.length_range] at hfirst
    obtain ⟨hbandwidth, hburst, -, hsamples⟩ := SynthSpec.check_eq_ok_iff.mp hcheck
    have hcheckFewer : { spec with links := fewer }.check profile = .ok () :=
      SynthSpec.check_eq_ok_iff.mpr ⟨hbandwidth, hburst, hpos, hsamples⟩
    refine ⟨g'', generate_eq_ok_iff.mpr ⟨hcheckFewer, _, hfirst, ?_⟩⟩
    rw [take_flatten_of_blocks hcount]

end blocks

/-- Three links with two samples each, of which some have a burst. -/
def threeLinks : SynthSpec where
  experiment := 1
  links := 3
  samplesPerLink := 2
  bandwidth := 250000
  burstProbability := 0.5
  start := .ofSeconds 172800 (by decide)

/-- Words with which the samples of `threeLinks` take different numbers of words. -/
def unevenWords : CyclicWords where
  words := #[0x8000000000000000, 0x4000000000000000, 0xC000000000000000, 0xE000000000000000,
    0x123456789ABCDEF0]

/-- The three blocks of `threeLinks`, and the first two of them for themselves. -/
theorem threeLinks_begin :
    ∃ samples rest, generate ⟨5000000, 10000000⟩ threeLinks unevenWords = .ok (samples, rest) ∧
      samples.map (fun s => (s.link, s.used)) =
        [(1, false), (1, true), (2, true), (2, false), (3, true), (3, false)] ∧
      (∀ number < 3, IsBlock threeLinks ⟨5000000, 10000000⟩ number
        ((samples.drop (number * 2)).take 2)) ∧
      ∃ rest', generate ⟨5000000, 10000000⟩ { threeLinks with links := 2 } unevenWords
        = .ok (samples.take 4, rest') := by
  have hdrawn : (generate ⟨5000000, 10000000⟩ threeLinks unevenWords).toOption.map
      (fun drawn => drawn.1.map fun s => (s.link, s.used)) =
        some [(1, false), (1, true), (2, true), (2, false), (3, true), (3, false)] := by
    decide +kernel
  obtain ⟨⟨samples, rest⟩, hsamples, hflags⟩ := exists_ok_of_view hdrawn
  obtain ⟨-, hblocks, hfewer⟩ := generate_is_prefix_stable hsamples
  exact ⟨samples, rest, hsamples, hflags, hblocks, hfewer 2 (by decide) (by decide)⟩

end ProbeGap
