import ProbeGap.Config.Reading
import ProbeGap.Proofs.Config.Validation
import ProbeGap.Proofs.Estimate.Availability

/-!
# Validation by rules

What a configuration is held to is a list of rules, in the order in which they are reported
(`Config.rules`). Each rule says what has to hold, and which error reports it. Validation goes
through that list: it succeeds if all rules hold, and otherwise it fails with the error of the first
rule that does not (`validate_reports_first_fault`). Nothing depends on how the rules are
tested. In particular not-a-number keeps no rule, although every test is a comparison and a
comparison with not-a-number is never true.

The one rule that is tested the other way round is that the capacity of an experiment does not
exceed the greatest one. Its test passes not-a-number, but by then two other rules have been found
to hold, and these say that both capacities are numbers.

Overrides change two settings that no rule is about, so an accepted configuration stays accepted.

## Contents

  * `Rule`, `Config.rules`: the rules in their order; `Config.IsValid`: all of them together.
  * `Verdict`: what comes out of going through rules, composed as the rules are.
  * `Config.verdict_validate`: validation goes through the rules of a configuration.
  * `validate_reports_first_fault`: the outcomes of validation and of overriding.
  * `Config.validate_of_loadConfigOr`: what is loaded is accepted.
-/

namespace ProbeGap

/-! ## §1. Rules -/

/-- A rule for configurations. -/
structure Rule where
  /-- The section that the rule is about. -/
  part : ConfigSection
  /-- What the rule is about, as the message of its error calls it. -/
  subject : String
  Holds : Prop
  /-- The error that reports that the rule does not hold. -/
  error : ValidationError

/-- The rules for an experiment. -/
def Profile.rules (name : String) (p : Profile) : List Rule :=
  [{ part := .experiment
     subject := name ++ ": " ++ "capacity"
     Holds := p.capacity.isFinite = true ∧ 0 < p.capacity
     error := .profile name (.capacityNotPositive p.capacity) },
   { part := .experiment
     subject := name ++ ": " ++ "max_capacity"
     Holds := p.maxCapacity.isFinite = true ∧ 0 < p.maxCapacity
     error := .profile name (.maxCapacityNotPositive p.maxCapacity) },
   { part := .experiment
     subject := name ++ ": " ++ "capacity"
     Holds := p.capacity ≤ p.maxCapacity
     error := .profile name (.capacityExceedsMax p.capacity p.maxCapacity) }]

/-- The rules for the settings of the estimator. -/
def EstimatorSettings.rules (s : EstimatorSettings) : List Rule :=
  [{ part := .estimator
     subject := "max_iterations"
     Holds := 1 ≤ s.maxIterations
     error := .noIterations },
   { part := .estimator
     subject := "tolerance"
     Holds := 0 < s.tolerance
     error := .toleranceNotPositive s.tolerance },
   { part := .estimator
     subject := "huber_t"
     Holds := 0 < s.threshold
     error := .thresholdNotPositive s.threshold },
   { part := .estimator
     subject := "slope_epsilon"
     Holds := 0 ≤ s.slopeEpsilon
     error := .slopeEpsilonNegative s.slopeEpsilon }]

/-- The rule for a window. -/
def TimeWindow.rule (w : TimeWindow) : Rule where
  part := .selection
  subject := "window start"
  Holds := w.start < w.stop
  error := .windowNotForward w.start w.stop

/-- The rules for the settings of the selection. -/
def SelectionSettings.rules (s : SelectionSettings) : List Rule :=
  [{ part := .selection
     subject := "probe_packet_size"
     Holds := 0 < s.packetSize
     error := .packetSizeNotPositive s.packetSize },
   { part := .selection
     subject := "min_confidence"
     Holds := 0 < s.minConfidence ∧ s.minConfidence ≤ 1
     error := .confidenceOutOfRange s.minConfidence }] ++ s.window.toList.map TimeWindow.rule

/-- All rules for a configuration, in the order in which they are reported. -/
def Config.rules (c : Config) : List Rule :=
  { part := .experiment
    subject := "at least one experiment"
    Holds := c.experiments.keys ≠ []
    error := .noExperiments } ::
  (c.experiments.entries.flatMap (fun e => e.2.rules e.1) ++
    (c.estimator.rules ++ c.selection.rules))

/-- The capacities of an experiment are usable. -/
structure Profile.IsUsable (p : Profile) : Prop where
  capacity_finite : p.capacity.isFinite = true
  capacity_pos : 0 < p.capacity
  maxCapacity_finite : p.maxCapacity.isFinite = true
  maxCapacity_pos : 0 < p.maxCapacity
  ordered : p.capacity ≤ p.maxCapacity

/-- What is asked of a configuration. -/
structure Config.IsValid (c : Config) : Prop where
  some_experiment : c.experiments.keys ≠ []
  profiles : ∀ name p, c.profile? name = some p → p.IsUsable
  iterations : 1 ≤ c.estimator.maxIterations
  tolerance : 0 < c.estimator.tolerance
  threshold : 0 < c.estimator.threshold
  slopeEpsilon : 0 ≤ c.estimator.slopeEpsilon
  packetSize : 0 < c.selection.packetSize
  minConfidence : 0 < c.selection.minConfidence ∧ c.selection.minConfidence ≤ 1
  window : ∀ w, c.selection.window = some w → w.start < w.stop

theorem Profile.isUsable_iff {p : Profile} {name : String} :
    p.IsUsable ↔ ∀ r ∈ p.rules name, r.Holds := by
  simp only [Profile.rules, List.forall_mem_cons, List.not_mem_nil, false_implies, implies_true,
    and_true]
  constructor
  · intro h
    exact ⟨⟨h.capacity_finite, h.capacity_pos⟩, ⟨h.maxCapacity_finite, h.maxCapacity_pos⟩,
      h.ordered⟩
  · rintro ⟨⟨hfinite, hpos⟩, ⟨hmaxFinite, hmaxPos⟩, hordered⟩
    exact ⟨hfinite, hpos, hmaxFinite, hmaxPos, hordered⟩

/-- A configuration is valid if all its rules hold. -/
theorem Config.isValid_iff {c : Config} : c.IsValid ↔ ∀ r ∈ c.rules, r.Holds := by
  have hprofiles : (∀ r ∈ c.experiments.entries.flatMap (fun e => e.2.rules e.1), r.Holds) ↔
      ∀ name p, c.profile? name = some p → p.IsUsable := by
    simp only [List.mem_flatMap, forall_exists_index, and_imp]
    constructor
    · intro h name p hp
      have hmem : (name, p) ∈ c.experiments.entries := Table.get?_eq_some_iff.mp hp
      exact Profile.isUsable_iff.mpr fun r hr => h r (name, p) hmem hr
    · intro h r e he hr
      have hp : c.profile? e.1 = some e.2 := Table.get?_eq_some_iff.mpr he
      exact Profile.isUsable_iff.mp (h e.1 e.2 hp) r hr
  have hwindow : (∀ r ∈ c.selection.window.toList.map TimeWindow.rule, r.Holds) ↔
      ∀ w, c.selection.window = some w → w.start < w.stop := by
    simp only [List.forall_mem_map, Option.mem_toList]
    rfl
  simp only [Config.rules, EstimatorSettings.rules, SelectionSettings.rules,
    List.forall_mem_append, List.forall_mem_cons, List.not_mem_nil, false_implies, implies_true,
    and_true, hprofiles, hwindow]
  constructor
  · intro h
    exact ⟨h.some_experiment, h.profiles,
      ⟨h.iterations, h.tolerance, h.threshold, h.slopeEpsilon⟩,
      ⟨h.packetSize, h.minConfidence⟩, h.window⟩
  · rintro ⟨hsome, hprofiles, ⟨hiterations, htolerance, hthreshold, hslope⟩,
      ⟨hpacket, hconfidence⟩, hwindow⟩
    exact ⟨hsome, hprofiles, hiterations, htolerance, hthreshold, hslope, hpacket, hconfidence,
      hwindow⟩

/-- The error of a rule belongs to the section of the rule, and its words begin with what the rule
is about. -/
def Rule.NamesSubject (r : Rule) : Prop :=
  r.error.concerns = r.part ∧ r.subject.toList <+: r.error.words.toList

theorem prefix_append_text {subject start : String} (h : subject.toList <+: start.toList)
    (text : String) : subject.toList <+: (start ++ text).toList := by
  rw [String.toList_append]
  exact h.trans (List.prefix_append _ _)

theorem prefix_after_text {subject words : String} (h : subject.toList <+: words.toList)
    (text : String) : (text ++ subject).toList <+: (text ++ words).toList := by
  rw [String.toList_append, String.toList_append]
  exact (List.prefix_append_right_inj _).mpr h

theorem Profile.rules_name_subjects (name : String) (p : Profile) :
    ∀ r ∈ p.rules name, r.NamesSubject := by
  have hcapacity : "capacity".toList <+:
      ("capacity must be a positive number, got " ++ plainText p.capacity).toList :=
    prefix_append_text (by decide) _
  have hmax : "max_capacity".toList <+:
      ("max_capacity must be a positive number, got " ++ plainText p.maxCapacity).toList :=
    prefix_append_text (by decide) _
  have hexceeds : "capacity".toList <+:
      ("capacity " ++ plainText p.capacity ++ " exceeds max_capacity " ++
        plainText p.maxCapacity).toList :=
    prefix_append_text (prefix_append_text (prefix_append_text (by decide) _) _) _
  simp only [Profile.rules, List.forall_mem_cons, List.not_mem_nil, false_implies, implies_true,
    and_true]
  exact ⟨⟨rfl, prefix_after_text hcapacity _⟩, ⟨rfl, prefix_after_text hmax _⟩,
    ⟨rfl, prefix_after_text hexceeds _⟩⟩

theorem EstimatorSettings.rules_name_subjects (s : EstimatorSettings) :
    ∀ r ∈ s.rules, r.NamesSubject := by
  have hiterations : "max_iterations".toList <+: "max_iterations must be at least 1".toList := by
    decide
  have htolerance : "tolerance".toList <+:
      ("tolerance must be positive, got " ++ plainText s.tolerance).toList :=
    prefix_append_text (by decide) _
  have hthreshold : "huber_t".toList <+:
      ("huber_t must be positive, got " ++ plainText s.threshold).toList :=
    prefix_append_text (by decide) _
  have hslope : "slope_epsilon".toList <+:
      ("slope_epsilon must not be negative, got " ++ plainText s.slopeEpsilon).toList :=
    prefix_append_text (by decide) _
  simp only [EstimatorSettings.rules, List.forall_mem_cons, List.not_mem_nil, false_implies,
    implies_true, and_true]
  exact ⟨⟨rfl, hiterations⟩, ⟨rfl, htolerance⟩, ⟨rfl, hthreshold⟩, ⟨rfl, hslope⟩⟩

theorem SelectionSettings.rules_name_subjects (s : SelectionSettings) :
    ∀ r ∈ s.rules, r.NamesSubject := by
  have hpacket : "probe_packet_size".toList <+:
      ("probe_packet_size must be positive, got " ++ plainText s.packetSize).toList :=
    prefix_append_text (by decide) _
  have hconfidence : "min_confidence".toList <+:
      ("min_confidence must be in (0, 1], got " ++ plainText s.minConfidence).toList :=
    prefix_append_text (by decide) _
  have hwindow : ∀ r ∈ s.window.toList.map TimeWindow.rule, r.NamesSubject := by
    intro r hr
    obtain ⟨w, -, rfl⟩ := List.mem_map.mp hr
    have hstart : "window start".toList <+:
        ("window start " ++ w.start.messageText ++ " is not before end " ++
          w.stop.messageText).toList :=
      prefix_append_text (prefix_append_text (prefix_append_text (by decide) _) _) _
    exact ⟨rfl, hstart⟩
  simp only [SelectionSettings.rules, List.forall_mem_append, List.forall_mem_cons,
    List.not_mem_nil, false_implies, implies_true, and_true]
  exact ⟨⟨⟨rfl, hpacket⟩, ⟨rfl, hconfidence⟩⟩, hwindow⟩

/-- The error of each rule names what the rule is about. -/
theorem Config.rules_name_subjects (c : Config) : ∀ r ∈ c.rules, r.NamesSubject := by
  have hsome : "at least one experiment".toList <+:
      "at least one experiment must be configured".toList := by
    decide
  have hprofiles : ∀ r ∈ c.experiments.entries.flatMap (fun e => e.2.rules e.1),
      r.NamesSubject := by
    intro r hr
    obtain ⟨e, -, hr⟩ := List.mem_flatMap.mp hr
    exact e.2.rules_name_subjects e.1 r hr
  simp only [Config.rules, List.forall_mem_append, List.forall_mem_cons]
  exact ⟨⟨rfl, hsome⟩, hprofiles, c.estimator.rules_name_subjects,
    c.selection.rules_name_subjects⟩

/-! ## §2. Going through rules -/

/-- What comes out of going through rules: the error of the first one that does not hold, if there
is one. -/
inductive Verdict : List Rule → Except ValidationError Unit → Prop where
  | accepted : Verdict [] (.ok ())
  | broken {rule : Rule} {rules : List Rule} (h : ¬ rule.Holds) :
      Verdict (rule :: rules) (.error rule.error)
  | kept {rule : Rule} {rules : List Rule} {outcome : Except ValidationError Unit}
      (h : rule.Holds) (rest : Verdict rules outcome) : Verdict (rule :: rules) outcome

/-- An error reports the first of some rules that does not hold. -/
def ReportsFirst (rules : List Rule) (e : ValidationError) : Prop :=
  ∃ before rule after, rules = before ++ rule :: after ∧ (∀ r ∈ before, r.Holds) ∧
    ¬ rule.Holds ∧ rule.error = e

theorem reportsFirst_cons {rule : Rule} {rules : List Rule} {e : ValidationError} :
    ReportsFirst (rule :: rules) e ↔
      (¬ rule.Holds ∧ rule.error = e) ∨ (rule.Holds ∧ ReportsFirst rules e) := by
  constructor
  · rintro ⟨before, broken, after, hsplit, hbefore, hbroken, herror⟩
    cases before with
    | nil =>
      obtain ⟨rfl, -⟩ := List.cons.inj hsplit
      exact Or.inl ⟨hbroken, herror⟩
    | cons first before =>
      obtain ⟨rfl, hrest⟩ := List.cons.inj hsplit
      obtain ⟨hfirst, hbefore⟩ := List.forall_mem_cons.mp hbefore
      exact Or.inr ⟨hfirst, before, broken, after, hrest, hbefore, hbroken, herror⟩
  · rintro (⟨hbroken, herror⟩ | ⟨hfirst, before, broken, after, rfl, hbefore, hbroken, herror⟩)
    · exact ⟨[], rule, rules, rfl, List.forall_mem_nil _, hbroken, herror⟩
    · exact ⟨rule :: before, broken, after, rfl, List.forall_mem_cons.mpr ⟨hfirst, hbefore⟩,
        hbroken, herror⟩

namespace Verdict

variable {rules : List Rule} {outcome : Except ValidationError Unit}

/-- Rules are passed if all of them hold. -/
theorem ok_iff (h : Verdict rules outcome) : outcome = .ok () ↔ ∀ r ∈ rules, r.Holds := by
  induction h with
  | accepted => exact ⟨fun _ => List.forall_mem_nil _, fun _ => rfl⟩
  | broken h => exact ⟨nofun, fun hall => absurd (hall _ List.mem_cons_self) h⟩
  | kept h _ ih =>
    rw [ih, List.forall_mem_cons]
    exact ⟨fun hrest => ⟨h, hrest⟩, And.right⟩

/-- An error is that of the first rule that does not hold. -/
theorem error_iff (h : Verdict rules outcome) {e : ValidationError} :
    outcome = .error e ↔ ReportsFirst rules e := by
  induction h with
  | accepted =>
    refine ⟨nofun, ?_⟩
    rintro ⟨before, rule, after, hsplit, -⟩
    cases before <;> cases hsplit
  | broken h =>
    rw [reportsFirst_cons, Except.error.injEq]
    exact ⟨fun herror => Or.inl ⟨h, herror⟩, fun hfirst => by
      rcases hfirst with ⟨-, herror⟩ | ⟨hholds, -⟩
      · exact herror
      · exact absurd hholds h⟩
  | kept h _ ih =>
    rw [ih, reportsFirst_cons]
    exact ⟨fun hrest => Or.inr ⟨h, hrest⟩, fun hfirst => by
      rcases hfirst with ⟨hbroken, -⟩ | ⟨-, hrest⟩
      · exact absurd h hbroken
      · exact hrest⟩

/-- A requirement goes through one rule, and what follows it may count on that rule. -/
theorem require_bind {rule : Rule} {condition : Bool} {later : List Rule}
    {next : Except ValidationError Unit} (h : condition = true ↔ rule.Holds)
    (hnext : rule.Holds → Verdict later next) :
    Verdict (rule :: later) (require condition rule.error >>= fun _ => next) := by
  unfold require
  by_cases hholds : rule.Holds
  · rw [if_pos (h.mpr hholds)]
    exact .kept hholds (hnext hholds)
  · rw [if_neg (mt h.mp hholds)]
    exact .broken hholds

theorem require_last {rule : Rule} {condition : Bool} (h : condition = true ↔ rule.Holds) :
    Verdict [rule] (require condition rule.error) := by
  have hlast : (require condition rule.error >>= fun _ => .ok ()) = require condition rule.error :=
    bind_pure_unit
  rw [← hlast]
  exact require_bind h fun _ => .accepted

/-- Steps in a row go through the rules of one after those of the other. -/
theorem bind {later : List Rule} {next : Except ValidationError Unit}
    (h : Verdict rules outcome) (hnext : Verdict later next) :
    Verdict (rules ++ later) (outcome >>= fun _ => next) := by
  induction h with
  | accepted => exact hnext
  | broken h => exact .broken h
  | kept h _ ih => exact .kept h ih

/-- A traversal goes through the rules of one member after those of the other. -/
theorem forM {α : Type} {rulesOf : α → List Rule} {check : α → Except ValidationError Unit}
    {xs : List α} (h : ∀ x ∈ xs, Verdict (rulesOf x) (check x)) :
    Verdict (xs.flatMap rulesOf) (xs.forM check) := by
  induction xs with
  | nil => exact .accepted
  | cons x xs ih =>
    obtain ⟨hx, hxs⟩ := List.forall_mem_cons.mp h
    exact hx.bind (ih hxs)

end Verdict

/-! ## §3. Validation -/

theorem isPositive_iff {x : Float} : isPositive x = true ↔ x.isFinite = true ∧ 0 < x := by
  unfold isPositive
  rw [Bool.and_eq_true_iff, decide_eq_true_iff]

/-- Of two finite numbers, one does not exceed the other if the other is not below it. -/
theorem not_below_iff {x y : Float} (hx : x.isFinite = true) (hy : y.isFinite = true) :
    (!decide (y < x)) = true ↔ x ≤ y := by
  rw [Bool.not_eq_true', decide_eq_false_iff_not]
  constructor
  · intro hnot
    apply Classical.byContradiction
    intro hle
    exact hnot (lt_of_not_le (isNaN_eq_false_of_isFinite hx) (isNaN_eq_false_of_isFinite hy) hle)
  · exact not_lt_of_le

theorem Profile.verdict_validate (name : String) (p : Profile) :
    Verdict (p.rules name) (p.validate name) := by
  unfold Profile.rules Profile.validate
  refine .require_bind isPositive_iff fun hcapacity => ?_
  refine .require_bind isPositive_iff fun hmax => ?_
  -- Both capacities are known to be numbers here, without which the test would say less.
  exact .require_last (not_below_iff hcapacity.1 hmax.1)

theorem EstimatorSettings.verdict_validate (s : EstimatorSettings) :
    Verdict s.rules s.validate := by
  have hiterations : (s.maxIterations != 0) = true ↔ 1 ≤ s.maxIterations := by
    rw [bne_iff_ne]
    omega
  unfold EstimatorSettings.rules EstimatorSettings.validate
  refine .require_bind hiterations fun _ => ?_
  refine .require_bind decide_eq_true_iff fun _ => ?_
  refine .require_bind decide_eq_true_iff fun _ => ?_
  exact .require_last decide_eq_true_iff

theorem SelectionSettings.verdict_validate (s : SelectionSettings) :
    Verdict s.rules s.validate := by
  have hconfidence : (decide (0 < s.minConfidence) && decide (s.minConfidence ≤ 1)) = true ↔
      0 < s.minConfidence ∧ s.minConfidence ≤ 1 := by
    rw [Bool.and_eq_true_iff, decide_eq_true_iff, decide_eq_true_iff]
  unfold SelectionSettings.rules SelectionSettings.validate
  refine .require_bind decide_eq_true_iff fun _ => ?_
  refine .require_bind hconfidence fun _ => ?_
  cases s.window with
  | none => exact .accepted
  | some w =>
    have hforward : decide (w.start < w.stop) = true ↔ w.rule.Holds := decide_eq_true_iff
    exact .require_last hforward

/-- Validation goes through the rules in their order. -/
theorem Config.verdict_validate (c : Config) : Verdict c.rules c.validate := by
  have hsome : (!c.experiments.isEmpty) = true ↔ c.experiments.keys ≠ [] := by
    rw [Table.isEmpty, Table.keys, Bool.not_eq_true', List.isEmpty_eq_false_iff, ne_eq, ne_eq,
      List.map_eq_nil_iff]
  unfold Config.rules Config.validate
  refine .require_bind hsome fun _ => ?_
  refine .bind (.forM fun e _ => e.2.verdict_validate e.1) ?_
  exact .bind c.estimator.verdict_validate c.selection.verdict_validate

/-! ## §4. Overrides -/

/-- What an override leaves of a configuration, and what it puts in place. -/
structure Overrides.Applied (o : Overrides) (before after : Config) : Prop where
  /-- Nothing but the number of workers and the method may differ. -/
  only_two : after = { before with
    estimator := { before.estimator with
      workers := after.estimator.workers
      method := after.estimator.method } }
  workers_given : ∀ n, o.workers = some n → after.estimator.workers = n
  workers_kept : o.workers = none → after.estimator.workers = before.estimator.workers
  method_given : ∀ m, o.method = some m → after.estimator.method = m
  method_kept : o.method = none → after.estimator.method = before.estimator.method

theorem Config.applied_withOverrides (c : Config) (o : Overrides) :
    o.Applied c (c.withOverrides o) where
  only_two := rfl
  workers_given n h := by simp [Config.withOverrides, h]
  workers_kept h := by simp [Config.withOverrides, h]
  method_given m h := by simp [Config.withOverrides, h]
  method_kept h := by simp [Config.withOverrides, h]

/-- No rule is about a setting that can be overridden. -/
theorem Config.rules_withOverrides (c : Config) (o : Overrides) :
    (c.withOverrides o).rules = c.rules := rfl

/-- An accepted configuration is accepted under all overrides. -/
theorem Config.override_of_valid {c : Config} (h : c.validate = .ok ()) (o : Overrides) :
    (c.withOverrides o).validate = .ok () ∧ c.override o = .ok (c.withOverrides o) := by
  have hvalid : (c.withOverrides o).validate = .ok () := by
    rw [(c.withOverrides o).verdict_validate.ok_iff, Config.rules_withOverrides]
    exact c.verdict_validate.ok_iff.mp h
  refine ⟨hvalid, ?_⟩
  show ((c.withOverrides o).validate >>= fun _ => pure (c.withOverrides o)) = _
  rw [hvalid]
  rfl

/-! ## §5. Loading -/

/-- The settings that are used where none are given keep their own rules. -/
theorem Config.validate_builtIn : Config.builtIn.validate = .ok () := by
  decide +kernel

/-- What is loaded is accepted. The built-in configuration is not even tested for that. Files are
read as far as the reader at hand knows YAML; those that it refuses are not loaded here. -/
theorem Config.validate_of_loadConfigOr {path : Option String}
    {contentOf : String → PathContent} {c : Config}
    (h : loadConfigOr path contentOf = .ok c) : c.validate = .ok () := by
  cases path with
  | none =>
    cases h
    exact Config.validate_builtIn
  | some path =>
    have hload : loadConfig path (contentOf path) = .ok c := h
    unfold loadConfig at hload
    obtain ⟨read, -, hload⟩ := bind_eq_ok_iff.mp hload
    obtain ⟨_, hvalid, hpure⟩ := bind_eq_ok_iff.mp hload
    cases hpure
    exact mapError_eq_ok_iff.mp hvalid

/-! ## §6. The outcomes -/

/-- Validation accepts exactly the valid configurations. Any other is rejected with the error of the
first rule that does not hold, experiments in the order of the bytes of their names, and this error
names what the rule is about. What is loaded is accepted; that is said of the reader at hand, which
knows a part of YAML only. Under any overrides an accepted configuration gives one that is accepted,
with the given settings in place and no other change. -/
theorem validate_reports_first_fault (c : Config) :
    (c.validate = .ok () ↔ c.IsValid) ∧
      (∀ e, c.validate = .error e ↔ ReportsFirst c.rules e) ∧
      c.experiments.keys.Pairwise (fun a b => nameBytes a < nameBytes b) ∧
      (∀ r ∈ c.rules, r.NamesSubject) ∧
      (∀ path contentOf, loadConfigOr path contentOf = .ok c → c.validate = .ok ()) ∧
      (c.validate = .ok () → ∀ o, ∃ overridden, c.override o = .ok overridden ∧
        overridden.validate = .ok () ∧ o.Applied c overridden) := by
  have hverdict := c.verdict_validate
  refine ⟨?_, fun e => hverdict.error_iff, c.names_in_byte_order, c.rules_name_subjects,
    fun _ _ => Config.validate_of_loadConfigOr, ?_⟩
  · rw [Config.isValid_iff]
    exact hverdict.ok_iff
  · intro hvalid o
    obtain ⟨hafter, hoverride⟩ := Config.override_of_valid hvalid o
    exact ⟨c.withOverrides o, hoverride, hafter, c.applied_withOverrides o⟩

/-- With both settings overridden, the built-in configuration is accepted. -/
theorem builtIn_accepts_overrides :
    Config.builtIn.validate = .ok () ∧
      ∃ overridden, Config.builtIn.override ⟨some 2, some .ols⟩ = .ok overridden ∧
        overridden.validate = .ok () ∧ overridden.estimator.workers = 2 ∧
        overridden.estimator.method = .ols := by
  obtain ⟨-, -, -, -, -, hoverride⟩ := validate_reports_first_fault Config.builtIn
  have hvalid := Config.validate_builtIn
  obtain ⟨overridden, hresult, hafter, happlied⟩ := hoverride hvalid ⟨some 2, some .ols⟩
  exact ⟨hvalid, overridden, hresult, hafter, happlied.workers_given 2 rfl,
    happlied.method_given .ols rfl⟩

/-- Of two rules that do not hold, the later one is about a number that is not one. -/
example :
    ({ estimator := { maxIterations := 0, tolerance := 0 / 0 }
       experiments := builtInExperiments } : Config).validate = .error .noIterations := by
  decide +kernel

end ProbeGap
