import ProbeGap.Proofs.Fallible
import ProbeGap.Proofs.Store.Marking
import ProbeGap.Synth.Generate

/-!
# What can be drawn

A drawing takes random words from a source. What results about drawn data need of it is not
which words came, but what can come: a drawing *yields* a value if from some state of the
source it ends with that value. Yielding goes through sequences of drawings
(`Yields.of_bind`) and through traversals (`Yields.of_mapM`).

The drawn samples of a link are an observation (`IsObservation`): they carry the link and the
experiment that were asked for, and they are marked as they would be marked again. The links
are numbered as the slots are, one a second. The calendar ends before the numbers do, so
each observation has a link of its own (`IsObservation.disjoint`).

Whether a drawing ends at all is up to the words as well. A number of a range is that of the
first word that is not rejected (`drawBelow_eq_some_iff`), and if all are rejected there is
none. Apart from that the request decides, which is checked before a word is taken
(`SynthSpec.IsDrawable`): from a source that does not reject forever
(`SynthSpec.IsSupplied`) it is drawn, or refused for what it asks for.
-/

namespace ProbeGap

/-! ## §1. Yielding -/

section yielding

variable {σ α β γ : Type}

/-- From some state of the source a drawing ends with a value. -/
def Yields (m : Drawing σ β) (b : β) : Prop :=
  ∃ g g', m g = .ok (b, g')

theorem Yields.of_pure {b b' : β} (h : Yields (pure b : Drawing σ β) b') : b' = b := by
  obtain ⟨g, g', h⟩ := h
  cases h
  rfl

/-- What two drawings yield one after the other is yielded by the second, with a value that
the first yields. -/
theorem Yields.of_bind {m : Drawing σ β} {f : β → Drawing σ γ} {c : γ}
    (h : Yields (m >>= f) c) : ∃ b, Yields m b ∧ Yields (f b) c := by
  obtain ⟨g, g', h⟩ := h
  obtain ⟨⟨b, g₁⟩, hm, hf⟩ := bind_eq_ok_iff.mp h
  exact ⟨b, ⟨g, g₁, hm⟩, ⟨g₁, g', hf⟩⟩

/-- A traversal yields a value for each member, in the order of the members. -/
theorem Yields.of_mapM {f : α → Drawing σ β} {xs : List α} {ys : List β}
    (h : Yields (xs.mapM f) ys) :
    ∃ pairs : List (α × β), pairs.map (·.1) = xs ∧ pairs.map (·.2) = ys ∧
      ∀ p ∈ pairs, Yields (f p.1) p.2 := by
  induction xs generalizing ys with
  | nil =>
    have hys : ys = [] := Yields.of_pure h
    exact ⟨[], rfl, hys.symm, fun p hp => by cases hp⟩
  | cons x xs ih =>
    rw [List.mapM_cons] at h
    obtain ⟨y, hy, hrest⟩ := h.of_bind
    obtain ⟨zs, hzs, hpure⟩ := hrest.of_bind
    obtain ⟨pairs, hxs, hys, hpairs⟩ := ih hzs
    have hys' : ys = y :: zs := hpure.of_pure
    refine ⟨(x, y) :: pairs, ?_, ?_, ?_⟩
    · rw [List.map_cons, hxs]
    · rw [List.map_cons, hys, hys']
    · intro p hp
      rcases List.mem_cons.mp hp with rfl | hp
      · exact hy
      · exact hpairs p hp

theorem Yields.of_requireInstant {t : Option Instant} {u : Instant}
    (h : Yields (requireInstant t : Drawing σ Instant) u) : t = some u := by
  cases t with
  | none =>
    obtain ⟨g, g', h⟩ := h
    cases h
  | some t => rw [h.of_pure]

end yielding

/-! ## §2. Links -/

theorem Instant.parts_of_ofParts? {seconds : Int} {nanos : Nat} {t : Instant}
    (h : Instant.ofParts? seconds nanos = some t) : t.seconds = seconds ∧ t.nanos = nanos := by
  unfold Instant.ofParts? at h
  by_cases hrange : firstSecond ≤ seconds ∧ seconds ≤ lastSecond
  · rw [dif_pos hrange] at h
    by_cases hfits : nanos < 2 * nanosPerSecond
    · rw [dif_pos hfits] at h
      cases h
      exact ⟨rfl, rfl⟩
    · rw [dif_neg hfits] at h
      cases h
  · rw [dif_neg hrange] at h
    cases h

/-- The calendar has fewer seconds than there are links. -/
theorem lt_of_addSeconds? {t u : Instant} {seconds : Nat}
    (h : t.addSeconds? seconds = some u) : seconds + 1 < countLimit := by
  have hspan : lastSecond - firstSecond + 2 < (countLimit : Int) := by decide
  have hstart := t.inRange
  have hend := u.inRange
  unfold Instant.addSeconds? Instant.later? at h
  split at h
  case isTrue hleap =>
    -- Within a leap second only a step of no seconds stays.
    simp only [Bool.and_eq_true, beq_iff_eq] at hleap
    have hzero : seconds = 0 := hleap.1.2
    omega
  case isFalse =>
    have hlater : t.seconds + seconds ≤ u.seconds := by
      rw [(Instant.parts_of_ofParts? h).1]
      exact Int.le_add_of_nonneg_right (Int.natCast_nonneg _)
    omega

theorem linkOfNumber_injective {i j : Nat} (hi : i + 1 < countLimit) (hj : j + 1 < countLimit)
    (h : linkOfNumber i = linkOfNumber j) : i = j := by
  have hnumbers := congrArg UInt64.toNat h
  unfold linkOfNumber at hnumbers
  rw [UInt64.toNat_ofNat_of_lt' hi, UInt64.toNat_ofNat_of_lt' hj] at hnumbers
  exact Nat.succ.inj hnumbers

/-! ## §3. Observations -/

/-- The samples of the link with a given number, marked. -/
structure IsObservation (spec : SynthSpec) (profile : Profile) (number : Nat)
    (samples : List (Sample Float)) : Prop where
  /-- The link has a slot in the calendar. -/
  numbered : number + 1 < countLimit
  link : ∀ s ∈ samples, s.link = linkOfNumber number
  experiment : ∀ s ∈ samples, s.experiment = spec.experiment
  /-- To mark the samples again changes nothing. -/
  marked : markCandidates (spec.query profile) samples = samples

section observations

variable {σ : Type} [WordSource σ] {spec : SynthSpec} {profile : Profile}

/-- A drawn sample is the sample of a point, at its own time. -/
theorem exists_sampleAt_of_yields {capacity : Float} {link : LinkId} {slot : Instant}
    {number : Nat} {s : Sample Float}
    (h : Yields (drawSample spec capacity link slot number : Drawing σ (Sample Float)) s) :
    ∃ p time, Yields (drawPoint spec capacity : Drawing σ (Point Float)) p ∧
      slot.addMillis? number = some time ∧ s = spec.sampleAt link time p := by
  obtain ⟨p, hp, hrest⟩ := h.of_bind
  obtain ⟨time, htime, hpure⟩ := hrest.of_bind
  exact ⟨p, time, hp, htime.of_requireInstant, hpure.of_pure⟩

/-- What is drawn for a link, before it is marked: a sample for each number. -/
theorem exists_drawn_of_yields {number : Nat} {samples : List (Sample Float)}
    (h : Yields (drawObservation spec profile number : Drawing σ (List (Sample Float))) samples) :
    ∃ slot, spec.start.addSeconds? number = some slot ∧
      ∃ pairs : List (Nat × Sample Float), pairs.map (·.1) = List.range spec.samplesPerLink ∧
        samples = markCandidates (spec.query profile) (pairs.map (·.2)) ∧
        ∀ pair ∈ pairs, ∃ p time,
          Yields (drawPoint spec profile.bottleneck : Drawing σ (Point Float)) p ∧
            slot.addMillis? pair.1 = some time ∧
              pair.2 = spec.sampleAt (linkOfNumber number) time p := by
  obtain ⟨slot, hslot, hrest⟩ := h.of_bind
  obtain ⟨drawn, hdrawn, hpure⟩ := hrest.of_bind
  obtain ⟨pairs, hnumbers, rfl, hpairs⟩ := hdrawn.of_mapM
  refine ⟨slot, hslot.of_requireInstant, pairs, hnumbers, hpure.of_pure, ?_⟩
  intro pair hpair
  exact exists_sampleAt_of_yields (hpairs pair hpair)

/-- What is drawn for a link is an observation. -/
theorem isObservation_of_yields {number : Nat} {samples : List (Sample Float)}
    (h : Yields (drawObservation spec profile number : Drawing σ (List (Sample Float))) samples) :
    IsObservation spec profile number samples := by
  obtain ⟨slot, hslot, pairs, -, hsamples, hpairs⟩ := exists_drawn_of_yields h
  -- Marking changes neither link nor experiment.
  have hmarked : ∀ s ∈ samples, s.link = linkOfNumber number ∧ s.experiment = spec.experiment := by
    intro s hs
    rw [hsamples] at hs
    obtain ⟨t, ht, rfl⟩ := List.mem_map.mp hs
    obtain ⟨pair, hpair, rfl⟩ := List.mem_map.mp ht
    obtain ⟨p, time, -, -, hpoint⟩ := hpairs pair hpair
    rw [hpoint]
    exact ⟨rfl, rfl⟩
  exact
    { numbered := lt_of_addSeconds? hslot
      link := fun s hs => (hmarked s hs).1
      experiment := fun s hs => (hmarked s hs).2
      marked := by
        rw [hsamples]
        exact markCandidates_congr _ (map_unmarked_markCandidates _ _) }

/-- Observations with different numbers have no link in common. -/
theorem IsObservation.disjoint {i j : Nat} {xs ys : List (Sample Float)}
    (hxs : IsObservation spec profile i xs) (hys : IsObservation spec profile j ys)
    (hne : i ≠ j) : ∀ x ∈ xs, ∀ y ∈ ys, x.link ≠ y.link := by
  intro x hx y hy hlink
  rw [hxs.link x hx, hys.link y hy] at hlink
  exact hne (linkOfNumber_injective hxs.numbered hys.numbered hlink)

/-- The observations of a request, one after another. -/
theorem observations_of_yields {samples : List (Sample Float)}
    (h : Yields (generate profile spec : Drawing σ (List (Sample Float))) samples) :
    ∃ observations : List (Nat × List (Sample Float)),
      observations.map (·.1) = List.range spec.links ∧
      samples = (observations.map (·.2)).flatten ∧
      ∀ o ∈ observations, IsObservation spec profile o.1 o.2 := by
  obtain ⟨_, -, hrest⟩ := h.of_bind
  obtain ⟨drawn, hdrawn, hpure⟩ := hrest.of_bind
  obtain ⟨observations, hnumbers, hvalues, hyields⟩ := hdrawn.of_mapM
  refine ⟨observations, hnumbers, ?_, ?_⟩
  · rw [hvalues]
    exact hpure.of_pure
  · intro o ho
    exact isObservation_of_yields (hyields o ho)

end observations

/-! ## §4. Numbers of a range -/

section ranges

variable {σ : Type} [WordSource σ] {low high : Float} {g : σ}

/-- The state of a source behind some words. -/
def skipWords : (count : Nat) → σ → σ
  | 0, g => g
  | count + 1, g => skipWords count (WordSource.next g).2

/-- Whether a word is not rejected: it gives a number below the end of the range. -/
def Accepts (low high : Float) (w : UInt64) : Prop :=
  stretchWord low high w < high

instance (low high : Float) (w : UInt64) : Decidable (Accepts low high w) :=
  inferInstanceAs (Decidable (_ < _))

/-- Whether the word behind some others is not rejected. -/
def AcceptsAfter (low high : Float) (count : Nat) (g : σ) : Prop :=
  Accepts low high (WordSource.next (skipWords count g)).1

/-- Whether a source comes to a word that is not rejected. -/
def ComesBelow (low high : Float) (g : σ) : Prop :=
  ∃ count, AcceptsAfter low high count g

theorem redraw_of_accepts (h : Accepts low high (WordSource.next g).1) :
    redraw low high g = some (stretchNext low high g) := by
  rw [redraw]
  exact if_pos h

theorem redraw_of_not_accepts (h : ¬ Accepts low high (WordSource.next g).1) :
    redraw low high g = redraw low high (WordSource.next g).2 := by
  rw [redraw]
  exact if_neg h

/-- The first draw is one like the others. -/
theorem drawBelow_eq_redraw : drawBelow low high g = redraw low high g := by
  rw [redraw]
  rfl

/-- If all words before one are rejected and that one is not, then it is the one drawn. -/
theorem redraw_of_first {count : Nat} (hbefore : ∀ i < count, ¬ AcceptsAfter low high i g)
    (hcount : AcceptsAfter low high count g) :
    redraw low high g = some (stretchNext low high (skipWords count g)) := by
  -- A round takes the first word away, and leaves one less before the one that counts.
  induction count generalizing g with
  | zero => exact redraw_of_accepts hcount
  | succ count ih =>
    have hrejected : ¬ Accepts low high (WordSource.next g).1 :=
      hbefore 0 (Nat.succ_pos count)
    rw [redraw_of_not_accepts hrejected, ih _ hcount]
    · rfl
    · intro i hi
      exact hbefore (i + 1) (Nat.succ_lt_succ hi)

/-- What is drawn is the number of some word, and the words before that were rejected. -/
theorem exists_first_of_redraw {drawn : Float × σ} (h : redraw low high g = some drawn) :
    ∃ count, (∀ i < count, ¬ AcceptsAfter low high i g) ∧ AcceptsAfter low high count g ∧
      drawn = stretchNext low high (skipWords count g) := by
  -- By induction on the rounds: each rejects a word or ends with it.
  refine redraw.partial_correctness
    (fun low high g drawn => ∃ count, (∀ i < count, ¬ AcceptsAfter low high i g) ∧
      AcceptsAfter low high count g ∧ drawn = stretchNext low high (skipWords count g))
    ?_ low high g drawn h
  intro rest ih low high g drawn hdrawn
  dsimp only at hdrawn
  split at hdrawn
  case isTrue haccepted =>
    refine ⟨0, fun i hi => absurd hi (Nat.not_lt_zero i), haccepted, ?_⟩
    exact (Option.some.inj hdrawn).symm
  case isFalse hrejected =>
    obtain ⟨count, hbefore, hcount, heq⟩ := ih _ _ _ _ hdrawn
    refine ⟨count + 1, ?_, hcount, heq⟩
    intro i hi
    cases i with
    | zero => exact hrejected
    | succ i => exact hbefore i (Nat.lt_of_succ_lt_succ hi)

/-- The number that is drawn is that of the first word that is not rejected. -/
theorem drawBelow_eq_some_iff {drawn : Float × σ} :
    drawBelow low high g = some drawn ↔
      ∃ count, (∀ i < count, ¬ AcceptsAfter low high i g) ∧ AcceptsAfter low high count g ∧
        drawn = stretchNext low high (skipWords count g) := by
  rw [drawBelow_eq_redraw]
  constructor
  · exact exists_first_of_redraw
  · intro h
    obtain ⟨count, hbefore, hcount, rfl⟩ := h
    exact redraw_of_first hbefore hcount

/-- A number is drawn exactly if the source comes to a word that is not rejected. -/
theorem exists_drawBelow_iff :
    (∃ drawn, drawBelow low high g = some drawn) ↔ ComesBelow low high g := by
  constructor
  · intro h
    obtain ⟨drawn, h⟩ := h
    obtain ⟨count, -, hcount, -⟩ := drawBelow_eq_some_iff.mp h
    exact ⟨count, hcount⟩
  · intro h
    obtain ⟨count, hcount⟩ := h
    rw [drawBelow_eq_redraw]
    -- That word need not be the first one, and a number is drawn all the sooner if it is not.
    induction count generalizing g with
    | zero => exact ⟨_, redraw_of_accepts hcount⟩
    | succ count ih =>
      by_cases hfirst : Accepts low high (WordSource.next g).1
      · exact ⟨_, redraw_of_accepts hfirst⟩
      · rw [redraw_of_not_accepts hfirst]
        exact ih hcount

/-- From a range a number is drawn, unless the source rejects forever. -/
theorem drawRange_eq_ok_iff {drawn : Float × σ} :
    drawRange low high g = .ok drawn ↔
      isRange low high = true ∧ drawBelow low high g = some drawn := by
  unfold drawRange
  split
  case isTrue hrange =>
    cases drawBelow low high g <;> simp [hrange]
  case isFalse hrange => simp [hrange]

end ranges

/-! ## §5. Requests that can be drawn -/

section ends

variable {σ α β γ : Type} {P : σ → Prop}

/-- From every state of the source with a property a drawing ends with some value, and the
source still has the property. -/
def EndsFrom (P : σ → Prop) (m : Drawing σ β) : Prop :=
  ∀ g, P g → ∃ b g', m g = .ok (b, g') ∧ P g'

theorem EndsFrom.pure (b : β) : EndsFrom P (pure b : Drawing σ β) :=
  fun g hg => ⟨b, g, rfl, hg⟩

theorem EndsFrom.bind {m : Drawing σ β} {f : β → Drawing σ γ} (hm : EndsFrom P m)
    (hf : ∀ b, EndsFrom P (f b)) : EndsFrom P (m >>= f) := by
  intro g hg
  obtain ⟨b, g₁, hb, hg₁⟩ := hm g hg
  obtain ⟨c, g₂, hc, hg₂⟩ := hf b g₁ hg₁
  exact ⟨c, g₂, bind_eq_ok_iff.mpr ⟨(b, g₁), hb, hc⟩, hg₂⟩

theorem EndsFrom.mapM {f : α → Drawing σ β} {xs : List α} (h : ∀ x ∈ xs, EndsFrom P (f x)) :
    EndsFrom P (xs.mapM f) := by
  induction xs with
  | nil => exact .pure []
  | cons x xs ih =>
    rw [List.mapM_cons]
    refine .bind (h x List.mem_cons_self) fun y => ?_
    exact .bind (ih fun x' hx' => h x' (List.mem_cons_of_mem x hx')) fun ys => .pure (y :: ys)

theorem endsFrom_requireInstant {t : Option Instant} (h : t.isSome = true) :
    EndsFrom P (requireInstant t : Drawing σ Instant) := by
  obtain ⟨u, rfl⟩ := Option.isSome_iff_exists.mp h
  exact .pure u

end ends

section drawable

variable {σ : Type} [WordSource σ] {spec : SynthSpec} {profile : Profile} {P : σ → Prop}
  {low high : Float}

/-- Whether a request asks for nothing that cannot be drawn: the rates and the jitter form
ranges, and the calendar has the times of all samples. -/
structure SynthSpec.IsDrawable (spec : SynthSpec) (profile : Profile) : Prop where
  rates : isRange (0.2 * profile.bottleneck) (0.98 * profile.bottleneck) = true
  jitters : 0 < spec.jitter → isRange (-spec.jitter) spec.jitter = true
  times : ∀ number < spec.links, ∀ i < spec.samplesPerLink,
    ((spec.start.addSeconds? number).bind (·.addMillis? i)).isSome = true

/-- Whether a source, from the states with a property on, does not reject its words forever:
not in the rates of a request, not in its jitter and not in its bursts. -/
structure SynthSpec.IsSupplied (spec : SynthSpec) (profile : Profile) (P : σ → Prop) : Prop where
  keeps : ∀ g, P g → P (WordSource.next g).2
  rates : ∀ g, P g → ComesBelow (0.2 * profile.bottleneck) (0.98 * profile.bottleneck) g
  jitters : ∀ g, P g → 0 < spec.jitter → ComesBelow (-spec.jitter) spec.jitter g
  bursts : ∀ g, P g → ComesBelow 0.5 2 g

theorem skipWords_keeps (hkeeps : ∀ g, P g → P (WordSource.next g).2) {g : σ} (hg : P g)
    (count : Nat) : P (skipWords count g) := by
  induction count generalizing g with
  | zero => exact hg
  | succ count ih => exact ih (hkeeps g hg)

theorem endsFrom_drawRange (hrange : isRange low high = true)
    (hkeeps : ∀ g, P g → P (WordSource.next g).2) (hbelow : ∀ g, P g → ComesBelow low high g) :
    EndsFrom P (drawRange low high : Drawing σ Float) := by
  intro g hg
  obtain ⟨drawn, hdrawn⟩ := exists_drawBelow_iff.mpr (hbelow g hg)
  refine ⟨drawn.1, drawn.2, drawRange_eq_ok_iff.mpr ⟨hrange, hdrawn⟩, ?_⟩
  obtain ⟨count, -, -, rfl⟩ := drawBelow_eq_some_iff.mp hdrawn
  exact hkeeps _ (skipWords_keeps hkeeps hg count)

theorem isRange_of_yields {r : Float} (h : Yields (drawRange low high : Drawing σ Float) r) :
    isRange low high = true := by
  obtain ⟨g, g', h⟩ := h
  exact (drawRange_eq_ok_iff.mp h).1

theorem endsFrom_decideWith (hkeeps : ∀ g, P g → P (WordSource.next g).2) (p : Float) :
    EndsFrom P (decideWith p : Drawing σ Bool) := by
  intro g hg
  refine ⟨(drawBool p g).1, (drawBool p g).2, rfl, ?_⟩
  unfold drawBool
  split
  · exact hg
  · exact hkeeps g hg

theorem endsFrom_drawPoint (h : spec.IsDrawable profile) (hsupplied : spec.IsSupplied profile P) :
    EndsFrom P (drawPoint spec profile.bottleneck : Drawing σ (Point Float)) := by
  have hkeeps := hsupplied.keeps
  have hbursts : EndsFrom P (drawRange 0.5 2 : Drawing σ Float) :=
    endsFrom_drawRange (by decide +kernel) hkeeps hsupplied.bursts
  refine .bind (endsFrom_drawRange h.rates hkeeps hsupplied.rates) fun x => ?_
  -- With a jitter or without, a burst is drawn after that or not.
  have hafter : ∀ y : Float, EndsFrom P (do
      let burst ← decideWith spec.burstProbability
      if burst then do
        let r ← drawRange 0.5 2
        let y ← pure (y * (1 + r))
        pure ⟨x, y⟩
      else do
        let y ← pure y
        pure ⟨x, y⟩ : Drawing σ (Point Float)) := by
    intro y
    refine .bind (endsFrom_decideWith hkeeps _) fun burst => ?_
    split
    · exact .bind hbursts fun r => .bind (.pure _) fun y => .pure _
    · exact .bind (.pure _) fun y => .pure _
  dsimp only
  split
  · rename_i hjitter
    have hjitters := endsFrom_drawRange (h.jitters hjitter) hkeeps
      fun g hg => hsupplied.jitters g hg hjitter
    exact .bind hjitters fun r => .bind (.pure _) hafter
  · exact .bind (.pure _) hafter

/-- The ranges of a drawn point are ranges. -/
theorem isRange_of_drawPoint {p : Point Float}
    (h : Yields (drawPoint spec profile.bottleneck : Drawing σ (Point Float)) p) :
    isRange (0.2 * profile.bottleneck) (0.98 * profile.bottleneck) = true ∧
      (0 < spec.jitter → isRange (-spec.jitter) spec.jitter = true) := by
  obtain ⟨x, hx, hrest⟩ := h.of_bind
  refine ⟨isRange_of_yields hx, ?_⟩
  intro hjitter
  dsimp only at hrest
  rw [if_pos hjitter] at hrest
  obtain ⟨r, hr, -⟩ := hrest.of_bind
  exact isRange_of_yields hr

theorem endsFrom_drawObservation (h : spec.IsDrawable profile)
    (hsupplied : spec.IsSupplied profile P) {number : Nat} (hnumber : number < spec.links)
    (hsamples : 0 < spec.samplesPerLink) :
    EndsFrom P (drawObservation spec profile number : Drawing σ (List (Sample Float))) := by
  have htimes := h.times number hnumber
  obtain ⟨slot, hslot⟩ : ∃ slot, spec.start.addSeconds? number = some slot := by
    obtain ⟨t, ht⟩ := Option.isSome_iff_exists.mp (htimes 0 hsamples)
    obtain ⟨slot, hslot, -⟩ := Option.bind_eq_some_iff.mp ht
    exact ⟨slot, hslot⟩
  unfold drawObservation
  rw [hslot] at htimes ⊢
  rw [show requireInstant (some slot) = (pure slot : Drawing σ Instant) from rfl, pure_bind]
  refine .bind (.mapM fun i hi => ?_) fun samples => .pure _
  exact .bind (endsFrom_drawPoint h hsupplied) fun p =>
    .bind (endsFrom_requireInstant (htimes i (List.mem_range.mp hi))) fun time => .pure _

end drawable

/-! ## §6. Words in turn -/

theorem next_mem {g : CyclicWords} (h : 0 < g.words.size) : (WordSource.next g).1 ∈ g.words := by
  have hlt : g.position % g.words.size < g.words.size := Nat.mod_lt _ h
  show g.words.getD (g.position % g.words.size) 0 ∈ g.words
  rw [Array.getD, dif_pos hlt]
  exact Array.getElem_mem hlt

/-- Words in turn, none of which is rejected, supply a request. -/
theorem SynthSpec.isSupplied_of_words {spec : SynthSpec} {profile : Profile}
    {words : Array UInt64} (hsome : 0 < words.size)
    (h : ∀ w ∈ words, Accepts (0.2 * profile.bottleneck) (0.98 * profile.bottleneck) w ∧
      Accepts (-spec.jitter) spec.jitter w ∧ Accepts 0.5 2 w) :
    spec.IsSupplied profile (fun g : CyclicWords => g.words = words) := by
  have hnext : ∀ g : CyclicWords, g.words = words → (WordSource.next g).1 ∈ words := by
    rintro g rfl
    exact next_mem hsome
  exact
    { keeps := fun g hg => hg
      rates := fun g hg => ⟨0, (h _ (hnext g hg)).1⟩
      jitters := fun g hg _ => ⟨0, (h _ (hnext g hg)).2.1⟩
      bursts := fun g hg => ⟨0, (h _ (hnext g hg)).2.2⟩ }

end ProbeGap
