import ProbeGap.Config.Validation
import ProbeGap.Proofs.Fallible
import ProbeGap.Proofs.Numeric.Rounding
import ProbeGap.Proofs.Table

/-!
# What valid configurations have

A valid configuration has experiments, and each of them has capacities that are finite and above
zero. The physical capacity in bytes, to which estimates are held, is then finite as well, since
an eighth of a finite double is finite.
-/

namespace ProbeGap

/-! ## §1. Rules -/

theorem require_eq_ok_iff {condition : Bool} {error : ValidationError} :
    require condition error = .ok () ↔ condition = true := by
  unfold require
  cases condition with
  | false => exact ⟨nofun, nofun⟩
  | true => exact ⟨fun _ => rfl, fun _ => rfl⟩

/-- The capacities of an experiment keep the rules. -/
structure Profile.IsValid (p : Profile) : Prop where
  capacity : isPositive p.capacity = true
  maxCapacity : isPositive p.maxCapacity = true
  ordered : ¬ p.maxCapacity < p.capacity

theorem Profile.validate_eq_ok_iff {p : Profile} {name : String} :
    p.validate name = .ok () ↔ p.IsValid := by
  unfold Profile.validate
  constructor
  · intro h
    obtain ⟨_, hcapacity, h⟩ := bind_eq_ok_iff.mp h
    obtain ⟨_, hmax, hordered⟩ := bind_eq_ok_iff.mp h
    refine ⟨require_eq_ok_iff.mp hcapacity, require_eq_ok_iff.mp hmax, ?_⟩
    simpa using require_eq_ok_iff.mp hordered
  · intro h
    have hordered : (!decide (p.maxCapacity < p.capacity)) = true := by simpa using h.ordered
    rw [h.capacity, h.maxCapacity, hordered]
    rfl

/-! ## §2. Valid configurations -/

section

variable {config : Config}

theorem Config.experiments_ne_nil (h : config.validate = .ok ()) :
    config.experiments.keys ≠ [] := by
  unfold Config.validate at h
  obtain ⟨_, hrequire, -⟩ := bind_eq_ok_iff.mp h
  have hentries : config.experiments.entries.isEmpty = false := by
    simpa [Table.isEmpty] using require_eq_ok_iff.mp hrequire
  unfold Table.keys
  intro hnil
  rw [List.map_eq_nil_iff.mp hnil] at hentries
  cases hentries

theorem Config.isValid_profile (h : config.validate = .ok ()) {name : String} {p : Profile}
    (hp : config.profile? name = some p) : p.IsValid := by
  unfold Config.validate at h
  obtain ⟨_, -, h⟩ := bind_eq_ok_iff.mp h
  obtain ⟨_, hprofiles, -⟩ := bind_eq_ok_iff.mp h
  have hmem : (name, p) ∈ config.experiments.entries := Table.get?_eq_some_iff.mp hp
  exact Profile.validate_eq_ok_iff.mp (forM_eq_ok_iff.mp hprofiles (name, p) hmem)

end

/-- The physical capacity of an experiment that keeps the rules is finite. -/
theorem Profile.IsValid.isFinite_physicalCapacity {p : Profile} (h : p.IsValid) :
    p.physicalCapacity.isFinite = true :=
  isFinite_div_eight (Bool.and_eq_true_iff.mp h.maxCapacity).1

end ProbeGap
