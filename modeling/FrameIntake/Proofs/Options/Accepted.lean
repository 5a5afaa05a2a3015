import FrameIntake.Options.Basic
import FrameIntake.Proofs.Framing.Backlog

/-!
Options that were accepted. They have no problem, and the partitioner that they describe keeps below the
ceiling that they name (`validate_ceiling`).
-/

namespace FrameIntake.Options

variable {o : Options} {config : Config} {kind : PartitionerKind} {p : Partitioner}

theorem validate_ok (h : o.validate = .ok config) : o.problems = [] ∧ o.config? = some config := by
  unfold validate at h
  split at h
  · rename_i hproblems hconfig
    obtain rfl := Except.ok.inj h
    exact ⟨hproblems, hconfig⟩
  · contradiction

theorem config?_partitioner (h : o.config? = some config) :
    ∃ kind, o.kind? = some kind ∧ o.describe? kind = some config.partitioner := by
  simp only [config?, Option.bind_eq_bind, Option.bind_eq_some_iff] at h
  obtain ⟨address, _, kind, hkind, partitioner, hdescribe, hconfig⟩ := h
  obtain rfl := Option.some.inj hconfig
  exact ⟨kind, hkind, hdescribe⟩

/-- Without a problem there is none of the ceiling, and none of the kind. -/
theorem clean_of_problems (h : o.problems = []) (hkind : o.kind? = some kind) :
    0 < o.maxMessageSize ∧ o.kindProblems kind = [] := by
  simp only [problems, List.append_eq_nil_iff, hkind, Option.elim_some] at h
  obtain ⟨⟨⟨_, hceiling⟩, hclean⟩, _⟩ := h
  refine ⟨?_, hclean⟩
  unfold ceilingProblems at hceiling
  split at hceiling
  · contradiction
  · omega

theorem describe?_ceiling (h : o.describe? kind = some p) (positive : 0 < o.maxMessageSize)
    (clean : o.kindProblems kind = []) : p.HasCeiling o.maxMessageSize := by
  cases kind with
  | delimiter | ascii | binary | binaryBigEndian =>
    obtain ⟨_, _, rfl⟩ := Option.map_eq_some_iff.mp h
    rfl
  | fixed =>
    simp only [kindProblems] at clean
    split at clean
    · contradiction
    · split at clean
      · contradiction
      · rename_i hsize
        simp only [describe?, Partitioner.fixed?] at h
        split at h
        · obtain rfl := Option.some.inj h
          show o.fixedSize.toNat ≤ o.maxMessageSize
          omega
        · contradiction

theorem validate_ceiling (h : o.validate = .ok config) :
    config.partitioner.HasCeiling o.maxMessageSize := by
  obtain ⟨hproblems, hconfig⟩ := validate_ok h
  obtain ⟨kind, hkind, hdescribe⟩ := config?_partitioner hconfig
  obtain ⟨positive, clean⟩ := clean_of_problems hproblems hkind
  exact describe?_ceiling hdescribe positive clean

end FrameIntake.Options
