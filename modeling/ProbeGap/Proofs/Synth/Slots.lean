import Mathlib.Data.List.Basic
import ProbeGap.Proofs.Store.Windows
import ProbeGap.Proofs.Synth.Blocks
import ProbeGap.Proofs.Synth.Flags

/-!
# Slots of generated links

Each link has a time slot, which starts a second after that of the link before it. Its samples
are a millisecond apart from the start of the slot on, however many there are. So a slot has room
for a thousand samples, and what a link has beyond that is in the slots that follow. A store that
is asked for a slot gives the first thousand samples of the link, and of every earlier link those
whose turn it is by then (`slotRows`). These are the samples of the link exactly if links have
no more than a thousand samples.

Times are counted in nanoseconds. Outside leap seconds that is a faithful count: a later instant
has a greater position, and steps of seconds and milliseconds add up.

Main statement: `slots_have_room_for_a_thousand`.
-/

namespace ProbeGap

/-! ## §1. Positions in time -/

/-- Nanoseconds since 1970-01-01T00:00:00 UTC, for instants outside leap seconds. -/
def Instant.position (t : Instant) : Int :=
  t.seconds * nanosPerSecond + t.nanos

/-- Nanoseconds in a millisecond. -/
def nanosPerMilli : Nat := 1000000

section positions

variable {t u : Instant}

theorem Instant.nanos_lt_of_not_isLeap (ht : t.isLeap = false) : t.nanos < 1000000000 := by
  have hnot := of_decide_eq_false ht
  simp only [nanosPerSecond] at hnot
  omega

theorem Instant.le_iff_position (ht : t.isLeap = false) (hu : u.isLeap = false) :
    t ≤ u ↔ t.position ≤ u.position := by
  have htNanos := nanos_lt_of_not_isLeap ht
  have huNanos := nanos_lt_of_not_isLeap hu
  simp only [Instant.le_iff, position, nanosPerSecond]
  omega

theorem Instant.lt_iff_position (ht : t.isLeap = false) (hu : u.isLeap = false) :
    t < u ↔ t.position < u.position := by
  have htNanos := nanos_lt_of_not_isLeap ht
  have huNanos := nanos_lt_of_not_isLeap hu
  simp only [Instant.lt_iff, position, nanosPerSecond]
  omega

/-- Outside leap seconds nanoseconds are carried over to seconds. -/
theorem Instant.later?_of_not_isLeap (ht : t.isLeap = false) (seconds nanos : Nat) :
    t.later? seconds nanos =
      ofParts? (t.seconds + seconds + ((t.nanos + nanos) / nanosPerSecond : Nat))
        ((t.nanos + nanos) % nanosPerSecond) := by
  unfold later?
  simp only [ht, Bool.false_and, Bool.false_eq_true, if_false]

/-- Outside leap seconds a step adds up, and does not lead into one. -/
theorem Instant.position_of_later? (ht : t.isLeap = false) {seconds nanos : Nat}
    (h : t.later? seconds nanos = some u) :
    u.isLeap = false ∧ u.position = t.position + seconds * nanosPerSecond + nanos := by
  rw [later?_of_not_isLeap ht] at h
  obtain ⟨hseconds, hnanos⟩ := parts_of_ofParts? h
  simp only [isLeap, position, hseconds, hnanos, nanosPerSecond]
  refine ⟨decide_eq_false ?_, ?_⟩ <;> omega

theorem Instant.position_of_addSeconds? (ht : t.isLeap = false) {seconds : Nat}
    (h : t.addSeconds? seconds = some u) :
    u.isLeap = false ∧ u.position = t.position + seconds * nanosPerSecond := by
  obtain ⟨hleap, hposition⟩ := position_of_later? ht h
  refine ⟨hleap, ?_⟩
  simpa using hposition

theorem Instant.position_of_addMillis? (ht : t.isLeap = false) {millis : Nat}
    (h : t.addMillis? millis = some u) :
    u.isLeap = false ∧ u.position = t.position + millis * nanosPerMilli := by
  obtain ⟨hleap, hposition⟩ := position_of_later? ht h
  refine ⟨hleap, ?_⟩
  simp only [nanosPerSecond, nanosPerMilli] at hposition ⊢
  omega

/-- There is a later instant as long as the calendar has not ended. -/
theorem Instant.isSome_later? (ht : t.isLeap = false) {seconds nanos : Nat}
    (h : t.position + seconds * nanosPerSecond + nanos < (lastSecond + 1) * nanosPerSecond) :
    (t.later? seconds nanos).isSome = true := by
  have hinRange := t.inRange.1
  have hfits : (t.nanos + nanos) % nanosPerSecond < 2 * nanosPerSecond := by
    simp only [nanosPerSecond]
    omega
  rw [later?_of_not_isLeap ht, ofParts?, dif_pos, dif_pos hfits]
  · rfl
  · simp only [position, nanosPerSecond] at h ⊢
    omega

end positions

/-! ## §2. Parts of lists -/

section parts

variable {α : Type}

/-- What a test keeps is a stretch of the list if the test is passed exactly there. -/
theorem filter_eq_take_drop {p : α → Bool} {xs : List α} {start count : Nat}
    (h : ∀ i x, xs[i]? = some x → (p x = true ↔ start ≤ i ∧ i < start + count)) :
    xs.filter p = (xs.drop start).take count := by
  have hbefore : (xs.take start).filter p = [] := by
    rw [List.filter_eq_nil_iff]
    intro x hx
    obtain ⟨i, hi⟩ := List.mem_iff_getElem?.mp hx
    rw [List.getElem?_take] at hi
    split at hi
    · rw [h i x hi]
      omega
    · cases hi
  have hwithin : ((xs.drop start).take count).filter p = (xs.drop start).take count := by
    rw [List.filter_eq_self]
    intro x hx
    obtain ⟨i, hi⟩ := List.mem_iff_getElem?.mp hx
    rw [List.getElem?_take] at hi
    split at hi
    · rw [List.getElem?_drop] at hi
      rw [h (start + i) x hi]
      omega
    · cases hi
  have hafter : ((xs.drop start).drop count).filter p = [] := by
    rw [List.filter_eq_nil_iff]
    intro x hx
    obtain ⟨i, hi⟩ := List.mem_iff_getElem?.mp hx
    rw [List.getElem?_drop, List.getElem?_drop] at hi
    rw [h _ x hi]
    omega
  calc xs.filter p
      = (xs.take start ++ ((xs.drop start).take count ++ (xs.drop start).drop count)).filter p := by
        rw [List.take_append_drop, List.take_append_drop]
    _ = (xs.drop start).take count := by
        rw [List.filter_append, List.filter_append, hbefore, hwithin, hafter, List.append_nil,
          List.nil_append]

/-- Numbers for which there is nothing may be left out at the end. -/
theorem flatMap_range_of_le {f : Nat → List α} {m n : Nat} (hmn : m ≤ n)
    (h : ∀ i, m ≤ i → i < n → f i = []) : (List.range n).flatMap f = (List.range m).flatMap f := by
  obtain ⟨k, rfl⟩ := Nat.exists_eq_add_of_le hmn
  rw [List.range_add, List.flatMap_append]
  have hnil : ((List.range k).map (m + ·)).flatMap f = [] := by
    rw [List.flatMap_eq_nil_iff]
    intro i hi
    obtain ⟨j, hj, rfl⟩ := List.mem_map.mp hi
    have hlt := List.mem_range.mp hj
    exact h _ (by omega) (by omega)
  rw [hnil, List.append_nil]

/-- If there is something for one number only, then that is all. -/
theorem flatMap_range_eq {f : Nat → List α} {m n : Nat} (hm : m < n)
    (h : ∀ i < n, i ≠ m → f i = []) : (List.range n).flatMap f = f m := by
  rw [flatMap_range_of_le (Nat.succ_le_of_lt hm) fun i hi hn => h i hn (by omega),
    List.range_succ, List.flatMap_append]
  have hnil : (List.range m).flatMap f = [] := by
    rw [List.flatMap_eq_nil_iff]
    intro i hi
    have hlt := List.mem_range.mp hi
    exact h i (by omega) (by omega)
  simp [hnil]

end parts

/-! ## §3. Slots -/

/-- The slot of the link with a given number, counted from zero: from the start of its samples
to that of the next link. -/
structure SynthSpec.IsSlot (spec : SynthSpec) (number : Nat) (w : TimeWindow) : Prop where
  start : spec.start.addSeconds? number = some w.start
  stop : spec.start.addSeconds? (number + 1) = some w.stop

/-- The samples of the link with a given number. -/
def linkSamples (samples : List (Sample Float)) (number : Nat) : List (Sample Float) :=
  samples.filter (·.link = linkOfNumber number)

/-- How many samples, a millisecond apart, start within a second. -/
def slotRoom : Nat := 1000

/-- What is in the slot of a link: of this link and those before it, in this order, the samples
whose turn it is. -/
def slotRows (samples : List (Sample Float)) (number : Nat) : List (Sample Float) :=
  (List.range (number + 1)).flatMap fun earlier =>
    ((linkSamples samples earlier).drop (slotRoom * (number - earlier))).take slotRoom

/-- Whether a sample has a time, and that is within a second from the start of the slot on. -/
def Sample.IsInSlot (start : Instant) (number : Nat) (s : Sample Float) : Prop :=
  ∃ t ∈ s.timestamp,
    start.position + number * nanosPerSecond ≤ t.position ∧
      t.position < start.position + (number + 1) * nanosPerSecond

/-- A sample of a link, by its number, is in the slot of the same or another link exactly if its
turn is then, counted from the first sample of the first link on. -/
theorem Sample.isInSlot_iff {start t : Instant} {number i : Nat} {s : Sample Float}
    (htime : s.timestamp = some t)
    (hposition : t.position = start.position + number * nanosPerSecond + i * nanosPerMilli)
    (other : Nat) :
    s.IsInSlot start other ↔ slotRoom * other ≤ slotRoom * number + i ∧
      slotRoom * number + i < slotRoom * other + slotRoom := by
  simp only [IsInSlot, htime, Option.mem_some_iff, exists_eq_left', hposition, nanosPerSecond,
    nanosPerMilli, slotRoom]
  omega

section blocks

variable {spec : SynthSpec} {profile : Profile} {blocks : List (List (Sample Float))}
  {number : Nat} {block : List (Sample Float)}

/-- The position of a sample of a block. -/
theorem IsBlock.exists_position (h : IsBlock spec profile number block)
    (hstart : spec.start.isLeap = false) {i : Nat} {s : Sample Float} (hs : block[i]? = some s) :
    ∃ t, s.timestamp = some t ∧ t.isLeap = false ∧
      t.position = spec.start.position + number * nanosPerSecond + i * nanosPerMilli := by
  obtain ⟨slot, hslot, htimes⟩ := h.times
  obtain ⟨t, ht, htime⟩ := htimes i s hs
  obtain ⟨hleap, hposition⟩ := Instant.position_of_addSeconds? hstart hslot
  obtain ⟨htLeap, htPosition⟩ := Instant.position_of_addMillis? hleap ht
  exact ⟨t, htime, htLeap, by rw [htPosition, hposition]⟩

/-- Whether a sample of a block is in a slot, by its number. -/
theorem IsBlock.isIn_slot_iff (h : IsBlock spec profile number block)
    (hstart : spec.start.isLeap = false) {other : Nat} {w : TimeWindow}
    (hw : spec.IsSlot other w) {i : Nat} {s : Sample Float} (hs : block[i]? = some s) :
    s.IsIn w.start w.stop ↔
      slotRoom * other ≤ slotRoom * number + i ∧
        slotRoom * number + i < slotRoom * other + slotRoom := by
  obtain ⟨t, htime, hleap, hposition⟩ := h.exists_position hstart hs
  obtain ⟨hopenLeap, hopen⟩ := Instant.position_of_addSeconds? hstart hw.start
  obtain ⟨hstopLeap, hstop⟩ := Instant.position_of_addSeconds? hstart hw.stop
  have hin : s.IsIn w.start w.stop ↔ s.IsInSlot spec.start other := by
    simp [Sample.IsIn, Sample.IsInSlot, htime, Instant.le_iff_position hopenLeap hleap,
      Instant.lt_iff_position hleap hstopLeap, hopen, hstop]
  rw [hin, Sample.isInSlot_iff htime hposition]

/-- Of a block the samples in a slot are those whose turn it is; before the link has its own slot
there are none. -/
theorem IsBlock.filter_isIn (h : IsBlock spec profile number block)
    (hstart : spec.start.isLeap = false) {other : Nat} {w : TimeWindow}
    (hw : spec.IsSlot other w) :
    block.filter (·.IsIn w.start w.stop) =
      if number ≤ other then (block.drop (slotRoom * (other - number))).take slotRoom else [] := by
  split
  · apply filter_eq_take_drop
    intro i s hs
    rw [decide_eq_true_iff, h.isIn_slot_iff hstart hw hs]
    simp only [slotRoom]
    omega
  · rw [List.filter_eq_nil_iff]
    intro s hs
    obtain ⟨i, hi⟩ := List.mem_iff_getElem?.mp hs
    rw [decide_eq_true_iff, h.isIn_slot_iff hstart hw hi]
    simp only [slotRoom]
    omega

theorem flatten_eq_flatMap_range (blocks : List (List (Sample Float))) :
    blocks.flatten = (List.range blocks.length).flatMap fun i => blocks[i]?.getD [] := by
  have hblocks : blocks = (List.range blocks.length).map fun i => blocks[i]?.getD [] := by
    apply List.ext_getElem
    · simp
    · intro i hi hi'
      simp [hi]
  exact congrArg List.flatten hblocks

variable (hblocks : ∀ number block, blocks[number]? = some block →
  IsBlock spec profile number block)

include hblocks

/-- The samples of a link are its block. -/
theorem linkSamples_flatten (hblock : blocks[number]? = some block) :
    linkSamples blocks.flatten number = block := by
  obtain ⟨hlt, hget⟩ := List.getElem?_eq_some_iff.mp hblock
  unfold linkSamples
  rw [flatten_eq_flatMap_range, List.filter_flatMap, flatMap_range_eq hlt]
  · rw [hblock, Option.getD_some, List.filter_eq_self]
    intro s hs
    exact decide_eq_true ((hblocks number block hblock).link s hs)
  · intro i hi hne
    rw [List.getElem?_eq_getElem hi, Option.getD_some, List.filter_eq_nil_iff]
    intro s hs hlink
    have hother := hblocks i _ (List.getElem?_eq_getElem hi)
    rw [decide_eq_true_iff, hother.link s hs] at hlink
    exact hne (linkOfNumber_injective hother.numbered (hblocks number block hblock).numbered hlink)

/-- Beyond the last link there are no samples. -/
theorem linkSamples_flatten_eq_nil (hlast : blocks.length ≤ number)
    (hnumber : number + 1 < countLimit) : linkSamples blocks.flatten number = [] := by
  unfold linkSamples
  rw [List.filter_eq_nil_iff]
  intro s hs hlink
  obtain ⟨block, hmem, hsBlock⟩ := List.mem_flatten.mp hs
  obtain ⟨i, hi⟩ := List.mem_iff_getElem?.mp hmem
  obtain ⟨hlt, -⟩ := List.getElem?_eq_some_iff.mp hi
  have hblock := hblocks i block hi
  rw [decide_eq_true_iff, hblock.link s hsBlock] at hlink
  have hsame := linkOfNumber_injective hblock.numbered hnumber hlink
  omega

/-- The samples in a slot. -/
theorem filter_isIn_flatten (hstart : spec.start.isLeap = false) {w : TimeWindow}
    (hw : spec.IsSlot number w) :
    blocks.flatten.filter (·.IsIn w.start w.stop) = slotRows blocks.flatten number := by
  have hnumber := lt_of_addSeconds? hw.start
  let rows : Nat → List (Sample Float) := fun i =>
    if i ≤ number then ((linkSamples blocks.flatten i).drop (slotRoom * (number - i))).take slotRoom
    else []
  have hleft : blocks.flatten.filter (·.IsIn w.start w.stop)
      = (List.range blocks.length).flatMap rows := by
    rw [flatten_eq_flatMap_range blocks, List.filter_flatMap]
    apply List.flatMap_congr
    intro i hi
    have hget := List.getElem?_eq_getElem (List.mem_range.mp hi)
    rw [hget, Option.getD_some, (hblocks i _ hget).filter_isIn hstart hw]
    simp only [rows, linkSamples_flatten hblocks hget]
  have hright : slotRows blocks.flatten number = (List.range (number + 1)).flatMap rows := by
    apply List.flatMap_congr
    intro i hi
    have hle : i ≤ number := Nat.lt_succ_iff.mp (List.mem_range.mp hi)
    simp only [rows, if_pos hle]
  -- Neither later links nor links that are not there have samples in the slot.
  rw [hleft, hright]
  rcases Nat.le_total blocks.length (number + 1) with hle | hle
  · symm
    apply flatMap_range_of_le hle
    intro i hi hlt
    have hnil := linkSamples_flatten_eq_nil hblocks hi (by omega)
    simp [rows, hnil]
  · apply flatMap_range_of_le hle
    intro i hi _
    have hlater : ¬ i ≤ number := by omega
    simp only [rows, if_neg hlater]

/-- How many samples a link has. -/
theorem length_linkSamples_flatten (hnumber : number < blocks.length) :
    (linkSamples blocks.flatten number).length = spec.samplesPerLink := by
  have hget := List.getElem?_eq_getElem hnumber
  rw [linkSamples_flatten hblocks hget]
  exact (hblocks number _ hget).count

/-- What a link has in its own slot, among all that is there. -/
theorem linkSamples_slotRows (hnumber : number < blocks.length) :
    linkSamples (slotRows blocks.flatten number) number =
      (linkSamples blocks.flatten number).take slotRoom := by
  have hnumbered := (hblocks number _ (List.getElem?_eq_getElem hnumber)).numbered
  have hpiece : ∀ earlier < number + 1, earlier ≠ number →
      linkSamples (((linkSamples blocks.flatten earlier).drop
        (slotRoom * (number - earlier))).take slotRoom) number = [] := by
    intro earlier hlt hne
    unfold linkSamples
    rw [List.filter_eq_nil_iff]
    intro s hs hlink
    have hmem := List.mem_of_mem_drop (List.mem_of_mem_take hs)
    have hearlier := of_decide_eq_true (List.mem_filter.mp hmem).2
    rw [decide_eq_true_iff, hearlier] at hlink
    exact hne (linkOfNumber_injective (by omega) hnumbered hlink)
  calc linkSamples (slotRows blocks.flatten number) number
      = (List.range (number + 1)).flatMap (fun earlier =>
          linkSamples (((linkSamples blocks.flatten earlier).drop
            (slotRoom * (number - earlier))).take slotRoom) number) := List.filter_flatMap
    _ = linkSamples (((linkSamples blocks.flatten number).drop
            (slotRoom * (number - number))).take slotRoom) number :=
        flatMap_range_eq (Nat.lt_succ_self number) hpiece
    _ = (linkSamples blocks.flatten number).take slotRoom := by
        rw [Nat.sub_self, Nat.mul_zero, List.drop_zero]
        apply List.filter_eq_self.mpr
        intro s hs
        exact (List.mem_filter.mp (List.mem_of_mem_take hs)).2

/-- There is nothing else in the slot of a link, and nothing of it elsewhere, exactly if links
have no more samples than there is room for. -/
theorem slotRows_eq_linkSamples_iff (hnumber : number < blocks.length) :
    slotRows blocks.flatten number = linkSamples blocks.flatten number ↔
      spec.samplesPerLink ≤ slotRoom := by
  have hlength := length_linkSamples_flatten hblocks hnumber
  constructor
  · intro heq
    have hown : linkSamples (linkSamples blocks.flatten number) number =
        linkSamples blocks.flatten number := by
      unfold linkSamples
      rw [List.filter_filter]
      simp only [Bool.and_self]
    have htaken := linkSamples_slotRows hblocks hnumber
    rw [heq, hown] at htaken
    have hcount := congrArg List.length htaken
    rw [List.length_take, hlength] at hcount
    omega
  · intro hroom
    unfold slotRows
    rw [flatMap_range_eq (Nat.lt_succ_self number)]
    · rw [Nat.sub_self, Nat.mul_zero, List.drop_zero, List.take_of_length_le]
      omega
    · -- The samples of an earlier link are used up before its own slot ends.
      intro earlier hlt hne
      have hbefore : earlier < blocks.length := by omega
      have hearlier := length_linkSamples_flatten hblocks hbefore
      have hused : slotRoom ≤ slotRoom * (number - earlier) :=
        Nat.le_mul_of_pos_right _ (by omega)
      rw [List.drop_of_length_le (by omega), List.take_nil]

end blocks

/-! ## §4. The slots of a dump -/

/-- How the samples of a dump are distributed over the slots of the links. -/
structure SynthSpec.FillsSlots (spec : SynthSpec) (dump : Dump) : Prop where
  /-- Every link but the last one has a slot that can be asked for. That of the last one might
  end after the last instant that there is. -/
  slots : ∀ number, number + 1 < spec.links → ∃ w, spec.IsSlot number w
  /-- A link has as many samples as were asked for, -/
  count : ∀ number < spec.links,
    (linkSamples dump.samples number).length = spec.samplesPerLink
  /-- a millisecond apart from the start of its slot on. -/
  stamped : ∀ number < spec.links, ∀ (i : Nat) s,
    (linkSamples dump.samples number)[i]? = some s → ∃ t, s.timestamp = some t ∧ t.isLeap = false ∧
      t.position = spec.start.position + number * nanosPerSecond + i * nanosPerMilli
  /-- They are all in the slot exactly if there is room for them. -/
  inside_iff : ∀ number < spec.links,
    (∀ s ∈ linkSamples dump.samples number, s.IsInSlot spec.start number) ↔
      spec.samplesPerLink ≤ slotRoom
  /-- A store that has loaded the dump answers with what is in the slot. -/
  answers : ∀ number w (q : CandidateQuery Float), spec.IsSlot number w →
    q.experiment = spec.experiment →
      (Store.ofDump dump).candidates { q with window := some w } =
        .ok (slotRows dump.samples number)
  /-- That are the samples of the link exactly if there is room for them. -/
  own_iff : ∀ number < spec.links,
    slotRows dump.samples number = linkSamples dump.samples number ↔
      spec.samplesPerLink ≤ slotRoom

section dumps

variable {σ : Type} [WordSource σ] {spec : SynthSpec} {profile : Profile} {name : String}
  {g g' : σ} {dump : Dump}

theorem withRecompute_ofDump (dump : Dump) :
    (Store.ofDump dump).withRecompute false = Store.ofDump dump := by
  unfold Store.withRecompute
  rw [← recompute_ofDump dump]

/-- The store of a generated dump selects by time alone. -/
theorem candidates_in_window (h : generateDump name profile spec g = .ok (dump, g'))
    {q : CandidateQuery Float} (hq : q.experiment = spec.experiment) (w : TimeWindow) :
    (Store.ofDump dump).candidates { q with window := some w } =
      .ok (dump.samples.filter (·.IsIn w.start w.stop)) := by
  obtain ⟨experiments, samples⟩ := dump
  obtain ⟨rfl, hsamples⟩ := generateDump_yields h
  have hstore := holds_ofDump ⟨[⟨spec.experiment, name⟩], samples⟩
  have hknown : (Store.ofDump ⟨[⟨spec.experiment, name⟩], samples⟩).samples.get? q.experiment
      ≠ none := hq ▸ known_of_holds hstore
  have hanswer := candidates_during (q := q) hknown w.start w.stop
  rw [withRecompute_ofDump, hq, samplesOf_of_holds hstore (experiment_of_yields hsamples)]
    at hanswer
  exact hanswer

/-- The samples of a generated dump are blocks. -/
theorem exists_blocks (h : generateDump name profile spec g = .ok (dump, g')) :
    ∃ blocks : List (List (Sample Float)), blocks.length = spec.links ∧
      dump.samples = blocks.flatten ∧ ∀ number block, blocks[number]? = some block →
        IsBlock spec profile number block := by
  obtain ⟨-, g₁, g₂, hgenerate⟩ := generateDump_yields h
  obtain ⟨-, blocks, hblocks, hsamples⟩ := generate_eq_ok_iff.mp hgenerate
  refine ⟨blocks, ?_, hsamples, fun number block hblock => isBlock_of_mapM hblocks hblock⟩
  rw [length_of_mapM hblocks, List.length_range]

theorem SynthSpec.fillsSlots (hstart : spec.start.isLeap = false)
    (h : generateDump name profile spec g = .ok (dump, g')) : spec.FillsSlots dump := by
  obtain ⟨blocks, hlinks, hsamples, hblocks⟩ := exists_blocks h
  have hstamped : ∀ number < spec.links, ∀ (i : Nat) s,
      (linkSamples dump.samples number)[i]? = some s →
        ∃ t, s.timestamp = some t ∧ t.isLeap = false ∧
          t.position = spec.start.position + number * nanosPerSecond + i * nanosPerMilli := by
    intro number hnumber i s hs
    rw [← hlinks] at hnumber
    have hget := List.getElem?_eq_getElem hnumber
    rw [hsamples, linkSamples_flatten hblocks hget] at hs
    exact (hblocks number _ hget).exists_position hstart hs
  have hcount : ∀ number < spec.links,
      (linkSamples dump.samples number).length = spec.samplesPerLink := by
    intro number hnumber
    rw [hsamples]
    exact length_linkSamples_flatten hblocks (hlinks ▸ hnumber)
  refine ⟨?_, hcount, hstamped, ?_, ?_, ?_⟩
  · -- A slot ends where that of the next link starts, so there has to be a next one.
    intro number hnumber
    have hthis := hblocks number _ (List.getElem?_eq_getElem (by omega))
    have hnext := hblocks (number + 1) _ (List.getElem?_eq_getElem (by omega))
    obtain ⟨opened, hopen, -⟩ := hthis.times
    obtain ⟨closed, hclose, -⟩ := hnext.times
    exact ⟨⟨opened, closed⟩, hopen, hclose⟩
  · intro number hnumber
    have hlength := hcount number hnumber
    constructor
    · intro hinside
      rcases Nat.lt_or_ge slotRoom spec.samplesPerLink with hmany | hroom
      case inr => exact hroom
      -- The sample after those for which there is room starts when the slot is over.
      have hlt : slotRoom < (linkSamples dump.samples number).length := by omega
      obtain ⟨t, htime, -, hposition⟩ :=
        hstamped number hnumber slotRoom _ (List.getElem?_eq_getElem hlt)
      have hslot := (Sample.isInSlot_iff htime hposition _).mp (hinside _ (List.getElem_mem hlt))
      omega
    · intro hroom s hs
      obtain ⟨i, hi⟩ := List.mem_iff_getElem?.mp hs
      obtain ⟨hlt, -⟩ := List.getElem?_eq_some_iff.mp hi
      obtain ⟨t, htime, -, hposition⟩ := hstamped number hnumber i s hi
      rw [Sample.isInSlot_iff htime hposition]
      omega
  · intro number w q hw hq
    rw [candidates_in_window h hq, hsamples, filter_isIn_flatten hblocks hstart hw]
  · intro number hnumber
    rw [hsamples]
    exact slotRows_eq_linkSamples_iff hblocks (hlinks ▸ hnumber)

/-- Whatever is generated, the slots of the links have room for a thousand samples each. Up to
that number every link has its slot to itself, and a store that is asked for a slot answers with
the samples of the link. Beyond it links run over into the slots of those that follow. -/
theorem slots_have_room_for_a_thousand (hstart : spec.start.isLeap = false)
    (h : generateDump name profile spec g = .ok (dump, g')) : spec.FillsSlots dump :=
  SynthSpec.fillsSlots hstart h

/-- The samples have times if the calendar does not end before. -/
theorem SynthSpec.isSome_time (hstart : spec.start.isLeap = false)
    (h : spec.start.position + spec.links * nanosPerSecond + spec.samplesPerLink * nanosPerMilli
      < (lastSecond + 1) * nanosPerSecond) {number i : Nat} (hnumber : number < spec.links)
    (hi : i < spec.samplesPerLink) :
    ((spec.start.addSeconds? number).bind (·.addMillis? i)).isSome = true := by
  simp only [nanosPerSecond, nanosPerMilli] at h
  have hslot : (spec.start.addSeconds? number).isSome = true :=
    Instant.isSome_later? hstart (by simp only [nanosPerSecond]; omega)
  obtain ⟨slot, hslot⟩ := Option.isSome_iff_exists.mp hslot
  obtain ⟨hleap, hposition⟩ := Instant.position_of_addSeconds? hstart hslot
  rw [hslot, Option.bind_some]
  apply Instant.isSome_later? hleap
  simp only [nanosPerSecond] at hposition ⊢
  omega

theorem exists_generateDump {P : σ → Prop} (hsupplied : spec.IsSupplied profile P) (hg : P g)
    (hcheck : spec.check profile = .ok ()) (hdrawable : spec.IsDrawable profile) (name : String) :
    ∃ dump g', generateDump name profile spec g = .ok (dump, g') := by
  obtain ⟨samples, g', h⟩ := (exists_generate_iff hsupplied hg).mpr ⟨hcheck, hdrawable⟩
  exact ⟨⟨[⟨spec.experiment, name⟩], samples⟩, g', bind_eq_ok_iff.mpr ⟨(samples, g'), h, rfl⟩⟩

end dumps

/-- Words are looked at one by one, where those of 64 bits are too many to be looked at. -/
theorem accepts_of_all {low high : Float} {words : Array UInt64}
    (h : words.toList.all (fun w => decide (Accepts low high w)) = true) :
    ∀ w ∈ words, Accepts low high w := by
  intro w hw
  exact of_decide_eq_true (List.all_eq_true.mp h w (Array.mem_toList_iff.mpr hw))

/-- None of the words is rejected, however many samples are asked for. -/
theorem fewWords_supply (count : Nat) :
    ({ twoLinks with samplesPerLink := count } : SynthSpec).IsSupplied ⟨5000000, 10000000⟩
      (fun g : CyclicWords => g.words = fewWords.words) := by
  have hrates : ∀ w ∈ fewWords.words, Accepts (0.2 * (5000000 / 8)) (0.98 * (5000000 / 8)) w := by
    apply accepts_of_all
    decide +kernel
  have hjitters : ∀ w ∈ fewWords.words, Accepts (-twoLinks.jitter) twoLinks.jitter w := by
    apply accepts_of_all
    decide +kernel
  have hbursts : ∀ w ∈ fewWords.words, Accepts 0.5 2 w := by
    apply accepts_of_all
    decide +kernel
  exact SynthSpec.isSupplied_of_words (by decide) fun w hw =>
    ⟨hrates w hw, hjitters w hw, hbursts w hw⟩

/-- Two links with one sample more than there is room for in a slot. -/
def crowdedLinks : SynthSpec :=
  { twoLinks with samplesPerLink := 1001 }

/-- The slot of the second link, the second after that at which the first link starts. -/
def secondSlot : TimeWindow where
  start := .ofSeconds 86401 (by decide)
  stop := .ofSeconds 86402 (by decide)

/-- The last sample of the first link is in the slot of the second one, and is given when that
slot is asked for. -/
theorem crowdedLinks_run_over :
    crowdedLinks.start.isLeap = false ∧ crowdedLinks.IsSlot 1 secondSlot ∧
      ∃ dump rest, generateDump "exp1" ⟨5000000, 10000000⟩ crowdedLinks fewWords
          = .ok (dump, rest) ∧
        (∃ s ∈ linkSamples dump.samples 0,
          ¬ s.IsInSlot crowdedLinks.start 0 ∧ s.IsInSlot crowdedLinks.start 1) ∧
        ∀ q : CandidateQuery Float, q.experiment = 1 → ∃ rows,
          (Store.ofDump dump).candidates { q with window := some secondSlot } = .ok rows ∧
            rows ≠ linkSamples dump.samples 1 ∧ ∃ s ∈ rows, s.link = linkOfNumber 0 := by
  have hstart : crowdedLinks.start.isLeap = false := by decide
  have hslot : crowdedLinks.IsSlot 1 secondSlot := ⟨by decide, by decide⟩
  have hdrawable : crowdedLinks.IsDrawable ⟨5000000, 10000000⟩ := by
    refine ⟨by decide +kernel, fun _ => by decide +kernel, ?_⟩
    intro number hnumber i hi
    exact SynthSpec.isSome_time hstart (by decide) hnumber hi
  have hcheck : crowdedLinks.check ⟨5000000, 10000000⟩ = .ok () :=
    SynthSpec.check_eq_ok_iff.mpr (by decide +kernel)
  obtain ⟨dump, rest, hdump⟩ :=
    exists_generateDump (g := fewWords) (fewWords_supply 1001) rfl hcheck hdrawable "exp1"
  have hfills := SynthSpec.fillsSlots hstart hdump
  have hcount : (linkSamples dump.samples 0).length = 1001 := hfills.count 0 (by decide)
  -- The last sample of the first link, which has the number 1000.
  have hlast := List.getElem?_eq_getElem (l := linkSamples dump.samples 0) (i := 1000)
    (by omega)
  obtain ⟨t, htime, -, hposition⟩ := hfills.stamped 0 (by decide) 1000 _ hlast
  refine ⟨hstart, hslot, dump, rest, hdump, ⟨_, List.mem_of_getElem? hlast, ?_, ?_⟩, ?_⟩
  · rw [Sample.isInSlot_iff htime hposition]
    decide
  · rw [Sample.isInSlot_iff htime hposition]
    decide
  · intro q hq
    refine ⟨_, hfills.answers 1 secondSlot q hslot hq, ?_,
      (linkSamples dump.samples 0)[1000], ?_, ?_⟩
    · rw [Ne, hfills.own_iff 1 (by decide)]
      decide
    · unfold slotRows
      rw [List.mem_flatMap]
      refine ⟨0, by decide, List.mem_of_getElem? (i := 0) ?_⟩
      rw [List.getElem?_take, List.getElem?_drop]
      exact hlast
    · exact of_decide_eq_true (List.mem_filter.mp (List.mem_of_getElem? hlast)).2

/-- Both links of `twoLinks` have their slots to themselves. -/
theorem twoLinks_have_room :
    twoLinks.start.isLeap = false ∧
      ∃ dump rest, generateDump "exp1" ⟨5000000, 10000000⟩ twoLinks fewWords = .ok (dump, rest) ∧
        twoLinks.FillsSlots dump ∧ twoLinks.IsSlot 1 secondSlot ∧
        ∀ q : CandidateQuery Float, q.experiment = 1 →
          (Store.ofDump dump).candidates { q with window := some secondSlot } =
            .ok (linkSamples dump.samples 1) := by
  have hstart : twoLinks.start.isLeap = false := by decide
  have hslot : twoLinks.IsSlot 1 secondSlot := ⟨by decide, by decide⟩
  have hdrawable : twoLinks.IsDrawable ⟨5000000, 10000000⟩ :=
    ⟨by decide +kernel, fun _ => by decide +kernel, by decide⟩
  have hcheck : twoLinks.check ⟨5000000, 10000000⟩ = .ok () :=
    SynthSpec.check_eq_ok_iff.mpr (by decide +kernel)
  obtain ⟨dump, rest, hdump⟩ :=
    exists_generateDump (g := fewWords) (fewWords_supply twoLinks.samplesPerLink) rfl hcheck
      hdrawable "exp1"
  have hfills := slots_have_room_for_a_thousand hstart hdump
  refine ⟨hstart, dump, rest, hdump, hfills, hslot, ?_⟩
  intro q hq
  rw [hfills.answers 1 secondSlot q hslot hq, (hfills.own_iff 1 (by decide)).mpr (by decide)]

end ProbeGap
