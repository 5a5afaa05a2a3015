import FrameIntake.Options.Settings
import FrameIntake.Proofs.Options.Accepted
import FrameIntake.Proofs.Options.Rules

/-!
The order in which problems are told. No option has two of them, but the check does not go from option to
option: it comes to the ceiling before the stream and before what only some kinds ask, and to the offset before
the bytes of the delimiter. So problems come in the order of their options exactly if no such pair is broken
(`told_in_order_iff`).
-/

namespace FrameIntake

/-- The option that a problem is about. -/
def Problem.about : Problem → String
  | unsupportedProtocol _ | invalidAddress _ => "Address"
  | unknownPartitioner _ => "Partitioner"
  | invalidEscape _ | emptyDelimiter | digitDelimiter => "Delimiter"
  | negativeOffset _ => "Offset"
  | invalidBinarySize _ | invalidFixedSize _ | fixedSizeExceedsMax .. => "Size"
  | emptyStream => "Stream"
  | zeroMaxMessageSize => "MaxMessageSize"

namespace Options

/-- The place of a problem's option among all options. -/
def place (p : Problem) : Nat := names.idxOf p.about

/-- Problems stand in the order of their options. -/
def InOrder (problems : List Problem) : Prop := problems.Pairwise fun p q => place p ≤ place q

/-- Two options are broken of which the check tells the latter first. -/
inductive Crossed (o : Options) : Prop
  | stream (zero : o.maxMessageSize = 0) (empty : o.stream = "") : Crossed o
  | kind {kind p} (zero : o.maxMessageSize = 0) (called : PartitionerKind.IsCalled kind o.partitioner)
      (broken : o.Unsuits kind p) : Crossed o
  | mark {kind p} (negative : o.offset < 0) (called : PartitionerKind.IsCalled kind o.partitioner)
      (broken : o.Unsuits kind p) (bytes : p.about = "Delimiter") : Crossed o

variable {o : Options} {p q : Problem} {problems : List Problem}

/-- Parts of the check that stand in order tell problems in order exactly if no two problems are crossed. -/
theorem inOrder_iff (parts : problems.Pairwise fun p q => part p < part q) :
    InOrder problems ↔ ∀ p ∈ problems, ∀ q ∈ problems, part p < part q → place p ≤ place q := by
  constructor
  · intro order p hp q hq hlt
    obtain ⟨i, hi, rfl⟩ := List.mem_iff_getElem.mp hp
    obtain ⟨j, hj, rfl⟩ := List.mem_iff_getElem.mp hq
    rcases Nat.lt_trichotomy i j with h | rfl | h
    · exact List.pairwise_iff_getElem.mp order i j hi hj h
    · exact absurd hlt (Nat.lt_irrefl _)
    · exact absurd (List.pairwise_iff_getElem.mp parts j i hj hi h) (Nat.lt_asymm hlt)
  · intro all
    exact parts.imp_of_mem fun hp hq hlt => all _ hp _ hq hlt

theorem parts_ascend (o : Options) : o.problems.Pairwise fun p q => part p < part q := by
  have numbers : [0, 1, 2, 3, 4, 5, 6].Pairwise (· < ·) := by decide
  exact List.pairwise_map.mp (numbers.sublist (part_problems o))

theorem place_eq (p : Problem) : place p = match p with
    | .unsupportedProtocol _ | .invalidAddress _ => 0
    | .unknownPartitioner _ => 1
    | .invalidEscape _ | .emptyDelimiter | .digitDelimiter => 2
    | .negativeOffset _ => 3
    | .invalidBinarySize _ | .invalidFixedSize _ | .fixedSizeExceedsMax .. => 4
    | .emptyStream => 5
    | .zeroMaxMessageSize => 6 := by
  cases p <;> rfl

/-- Only the ceiling and the offset are told before an option that stands in front of them. -/
theorem crossed_cases (parts : part p < part q) (places : place q < place p) :
    p = .zeroMaxMessageSize ∧ (q = .emptyStream ∨ part q = 5) ∨
      (∃ n, p = .negativeOffset n) ∧ part q = 5 ∧ q.about = "Delimiter" := by
  rw [place_eq, place_eq] at places
  cases p with
  | zeroMaxMessageSize => cases q <;> simp_all [part]
  | negativeOffset n => cases q <;> simp_all [part, Problem.about]
  | unsupportedProtocol | invalidAddress => exact absurd places (Nat.not_lt_zero _)
  | _ => cases q <;> simp_all [part]

/-- Only the delimiter is judged in two parts. -/
theorem escape_of_about (parts : part p < part q) (same : p.about = q.about) :
    (∃ e, p = .invalidEscape e) ∧ part q = 5 ∧ q.about = "Delimiter" := by
  cases p <;> cases q <;> simp_all [part, Problem.about]

theorem Breaks.unsuits (h : o.Breaks p) (hp : part p = 5) :
    ∃ kind : PartitionerKind, kind.IsCalled o.partitioner ∧ o.Unsuits kind p := by
  cases h with
  | address refused =>
    rcases ListenAddress.parse_error refused with rfl | ⟨protocol, rfl⟩ <;> cases hp
  | kind called broken => exact ⟨_, called, broken⟩
  | partitioner | delimiter | offset | maxMessageSize | stream => cases hp

theorem Unsuits.part_eq (h : o.Unsuits kind p) : part p = 5 := by cases h <;> rfl

theorem Unsuits.place_lt (h : o.Unsuits kind p) : place p < place .zeroMaxMessageSize := by
  simp only [place_eq]
  cases h <;> simp

/-- What a problem blames on the options, if it does not take a kind to have it. -/
def Blames (o : Options) : Problem → Prop
  | .invalidEscape e => Escape.unescape o.delimiter = .error e
  | .negativeOffset _ => o.offset < 0
  | .emptyStream => o.stream = ""
  | .zeroMaxMessageSize => o.maxMessageSize = 0
  | _ => True

theorem Breaks.blames (h : o.Breaks p) : o.Blames p := by
  cases h with
  | address refused =>
    rcases ListenAddress.parse_error refused with rfl | ⟨protocol, rfl⟩ <;> exact trivial
  | partitioner unknown => exact trivial
  | delimiter refused => exact refused
  | offset negative => exact negative
  | maxMessageSize zero => exact zero
  | stream empty => exact empty
  | kind called broken => cases broken <;> exact trivial

/-- Crossed options have two problems that are told in the wrong order, and no others have. -/
theorem crossed_iff :
    o.Crossed ↔ ∃ p ∈ o.problems, ∃ q ∈ o.problems, part p < part q ∧ place q < place p := by
  simp only [mem_problems_iff]
  constructor
  · intro h
    cases h with
    | stream zero empty => exact ⟨_, .maxMessageSize zero, _, .stream empty, by decide, by decide⟩
    | kind zero called broken =>
      refine ⟨_, .maxMessageSize zero, _, .kind called broken, ?_, broken.place_lt⟩
      rw [broken.part_eq]
      decide
    | mark negative called broken bytes =>
      refine ⟨_, .offset negative, _, .kind called broken, ?_, ?_⟩
      · rw [broken.part_eq]
        exact (by decide : 3 < 5)
      · rw [place, bytes, place_eq]
        exact (by decide : 2 < 3)
  · rintro ⟨p, hp, q, hq, parts, places⟩
    rcases crossed_cases parts places with ⟨rfl, rfl | hkind⟩ | ⟨⟨n, rfl⟩, hkind, bytes⟩
    · exact .stream hp.blames hq.blames
    · obtain ⟨kind, called, broken⟩ := hq.unsuits hkind
      exact .kind hp.blames called broken
    · obtain ⟨kind, called, broken⟩ := hq.unsuits hkind
      exact .mark hp.blames called broken bytes

/-- A delimiter that cannot be decoded has no bytes to be judged. -/
theorem nodup_about (o : Options) : (o.problems.map Problem.about).Nodup := by
  apply List.pairwise_map.mpr
  refine (parts_ascend o).imp_of_mem ?_
  intro p q hp hq parts same
  obtain ⟨⟨e, rfl⟩, hkind, bytes⟩ := escape_of_about parts same
  have refused : Escape.unescape o.delimiter = .error e := (mem_problems_iff.mp hp).blames
  obtain ⟨kind, called, broken⟩ := (mem_problems_iff.mp hq).unsuits hkind
  cases broken with
  | emptyDelimiter marks decoded => cases refused.symm.trans decoded
  | digitDelimiter decoded digit => cases refused.symm.trans decoded
  | binarySize | fixedSize | fixedAbove => simp [Problem.about] at bytes

theorem inOrder_problems_iff (o : Options) : InOrder o.problems ↔ ¬ o.Crossed := by
  rw [inOrder_iff (parts_ascend o), crossed_iff]
  push Not
  rfl

theorem validate_error (h : o.validate = .error problems) : problems = o.problems := by
  unfold validate at h
  split at h
  · cases h
  · exact (Except.error.inj h).symm

/-- Problems come in the order of the check, and no option has two of them. They come in the order of their
options unless the ceiling is zero beside an empty stream or a broken rule of the kind, or the offset is negative
beside a delimiter whose bytes are refused. Accepted options have no such pair. -/
theorem told_in_order_iff (o : Options) :
    match o.validate with
    | .ok _ => ¬ o.Crossed
    | .error problems =>
      (problems.Pairwise fun p q => part p < part q) ∧ (problems.map Problem.about).Nodup ∧
        (InOrder problems ↔ ¬ o.Crossed) := by
  cases h : o.validate with
  | ok config =>
    obtain ⟨hnone, _⟩ := validate_ok h
    rw [← inOrder_problems_iff, hnone]
    exact List.Pairwise.nil
  | error problems =>
    obtain rfl := validate_error h
    exact ⟨parts_ascend o, nodup_about o, inOrder_problems_iff o⟩

/-- The ceiling is told in front of the stream, which stands in front of it. -/
theorem ceiling_before_stream :
    let o : Options := { stream := "", maxMessageSize := 0 }
    o.validate = .error [.zeroMaxMessageSize, .emptyStream] ∧
      ¬ InOrder [.zeroMaxMessageSize, .emptyStream] := by
  refine ⟨by decide +kernel, ?_⟩
  intro order
  have := List.rel_of_pairwise_cons order (List.mem_singleton.mpr rfl)
  exact absurd this (by decide)

end Options

end FrameIntake
