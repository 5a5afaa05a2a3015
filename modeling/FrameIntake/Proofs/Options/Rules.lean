import FrameIntake.Options.Basic
import Mathlib.Data.List.Nodup

/-!
The rules for options, said one by one and without the check: what they ask (`Acceptable`), which problem
it is to break one (`Breaks`), and the partitioner that acceptable options describe (`Describes`). The
check tells all of them, each broken rule once (`validate_settles`).
-/

namespace FrameIntake

namespace PartitionerKind

/-- The names of a kind, in lower case. -/
def names : PartitionerKind → List String
  | delimiter => ["delimiter"]
  | ascii => ["ascii"]
  | binary => ["binary", "binary_le"]
  | binaryBigEndian => ["binary_be"]
  | fixed => ["fixed"]

/-- Case is of no importance, for ASCII letters. -/
def IsCalled (kind : PartitionerKind) (text : String) : Prop := text.map Char.toLower ∈ kind.names

theorem ofName?_eq_some_iff {text : String} {kind : PartitionerKind} :
    ofName? text = some kind ↔ kind.IsCalled text := by
  unfold ofName? IsCalled
  split
  all_goals cases kind <;> simp_all [names]

theorem ofName?_eq_none_iff {text : String} :
    ofName? text = none ↔ ∀ kind : PartitionerKind, ¬ kind.IsCalled text := by
  simp only [← ofName?_eq_some_iff, Option.eq_none_iff_forall_ne_some, ne_eq]

end PartitionerKind

theorem Width.ofSize?_eq_some_iff {size : Int} {width : Width} :
    Width.ofSize? size = some width ↔ size = width.bytes := by
  constructor
  · intro h
    unfold Width.ofSize? at h
    split at h <;> cases h <;> rfl
  · rintro rfl
    exact Width.ofSize?_bytes width

theorem Width.ofSize?_isSome_iff {size : Int} :
    (Width.ofSize? size).isSome = true ↔ size ∈ ([1, 2, 4, 8] : List Int) := by
  unfold Width.ofSize?
  split <;> simp_all

/-- What can be wrong with an address. -/
theorem ListenAddress.parse_error {address : String} {p : Problem}
    (h : ListenAddress.parse address = .error p) :
    p = .invalidAddress address ∨ ∃ protocol, p = .unsupportedProtocol protocol := by
  unfold parse at h
  dsimp only at h
  split at h
  · split at h
    · cases h
    · exact .inl (Except.error.inj h).symm
  · split at h
    · split at h
      · exact .inl (Except.error.inj h).symm
      · cases h
    · exact .inr ⟨_, (Except.error.inj h).symm⟩

namespace Options

/-- What a kind of partitioner asks of the options. -/
def Suits (o : Options) : PartitionerKind → Prop
  | .delimiter => ∃ bytes, Escape.unescape o.delimiter = .ok bytes ∧ bytes ≠ []
  | .ascii =>
    ∃ first rest, Escape.unescape o.delimiter = .ok (first :: rest) ∧ ¬ (48 ≤ first ∧ first ≤ 57)
  | .binary | .binaryBigEndian => o.size.getD 4 ∈ ([1, 2, 4, 8] : List Int)
  | .fixed => 1 ≤ o.size.getD 1 ∧ o.size.getD 1 ≤ o.maxMessageSize

/-- What is asked of options. -/
structure Acceptable (o : Options) : Prop where
  address : ∃ address, ListenAddress.parse o.address = .ok address
  partitioner : ∃ kind : PartitionerKind, kind.IsCalled o.partitioner
  delimiter : ∃ bytes, Escape.unescape o.delimiter = .ok bytes
  offset : 0 ≤ o.offset
  maxMessageSize : 0 < o.maxMessageSize
  stream : o.stream ≠ ""
  suits : ∀ kind : PartitionerKind, kind.IsCalled o.partitioner → o.Suits kind

/-- The problem that it is to break a rule of a kind of partitioner. A delimiter's bytes break none unless it
can be decoded. -/
inductive Unsuits (o : Options) : PartitionerKind → Problem → Prop
  | emptyDelimiter {kind} (marks : kind = .delimiter ∨ kind = .ascii)
      (decoded : Escape.unescape o.delimiter = .ok []) : Unsuits o kind .emptyDelimiter
  | digitDelimiter {first rest} (decoded : Escape.unescape o.delimiter = .ok (first :: rest))
      (digit : 48 ≤ first ∧ first ≤ 57) : Unsuits o .ascii .digitDelimiter
  | binarySize {kind} (measures : kind = .binary ∨ kind = .binaryBigEndian)
      (other : o.size.getD 4 ∉ ([1, 2, 4, 8] : List Int)) :
      Unsuits o kind (.invalidBinarySize (o.size.getD 4))
  | fixedSize (small : o.size.getD 1 ≤ 0) : Unsuits o .fixed (.invalidFixedSize (o.size.getD 1))
  | fixedAbove {size : Nat} (given : o.size.getD 1 = size) (positive : 0 < size)
      (ceiling : 0 < o.maxMessageSize) (above : o.maxMessageSize < size) :
      Unsuits o .fixed (.fixedSizeExceedsMax size o.maxMessageSize)

/-- The problem that it is to break a rule. Those of a kind are broken only if it is the one that is named. -/
inductive Breaks (o : Options) : Problem → Prop
  | address {p} (refused : ListenAddress.parse o.address = .error p) : Breaks o p
  | partitioner (unknown : ∀ kind : PartitionerKind, ¬ kind.IsCalled o.partitioner) :
      Breaks o (.unknownPartitioner o.partitioner)
  | delimiter {e} (refused : Escape.unescape o.delimiter = .error e) : Breaks o (.invalidEscape e)
  | offset (negative : o.offset < 0) : Breaks o (.negativeOffset o.offset)
  | maxMessageSize (zero : o.maxMessageSize = 0) : Breaks o .zeroMaxMessageSize
  | stream (empty : o.stream = "") : Breaks o .emptyStream
  | kind {kind p} (called : PartitionerKind.IsCalled kind o.partitioner) (broken : o.Unsuits kind p) :
      Breaks o p

/-- The partitioner that acceptable options describe. A fixed size has no ceiling beside it. -/
inductive Describes (o : Options) : Partitioner → Prop
  | delimiter {mark : Delimiter} (called : PartitionerKind.delimiter.IsCalled o.partitioner)
      (decoded : Escape.unescape o.delimiter = .ok mark.bytes) :
      Describes o (.delimiter mark o.maxMessageSize)
  | ascii {mark : Delimiter} {offset : Nat} (called : PartitionerKind.ascii.IsCalled o.partitioner)
      (decoded : Escape.unescape o.delimiter = .ok mark.bytes) (behind : o.offset = offset) :
      Describes o (.ascii offset mark o.maxMessageSize)
  | little {offset : Nat} {width : Width} (called : PartitionerKind.binary.IsCalled o.partitioner)
      (behind : o.offset = offset) (wide : o.size.getD 4 = width.bytes) :
      Describes o (.binary offset ⟨width, .little⟩ o.maxMessageSize)
  | big {offset : Nat} {width : Width}
      (called : PartitionerKind.binaryBigEndian.IsCalled o.partitioner) (behind : o.offset = offset)
      (wide : o.size.getD 4 = width.bytes) :
      Describes o (.binary offset ⟨width, .big⟩ o.maxMessageSize)
  | fixed {size : Nat} (positive : 0 < size) (called : PartitionerKind.fixed.IsCalled o.partitioner)
      (given : o.size.getD 1 = size) : Describes o (.fixed size positive)

variable {o : Options} {p : Problem} {kind : PartitionerKind}

theorem mem_addressProblems : p ∈ o.addressProblems ↔ ListenAddress.parse o.address = .error p := by
  unfold addressProblems
  cases ListenAddress.parse o.address with
  | ok address => simp
  | error q => simp [eq_comm]

theorem mem_nameProblems :
    p ∈ o.nameProblems ↔
      (∀ kind : PartitionerKind, ¬ kind.IsCalled o.partitioner) ∧
        p = .unknownPartitioner o.partitioner := by
  rw [← PartitionerKind.ofName?_eq_none_iff, nameProblems, kind?]
  cases PartitionerKind.ofName? o.partitioner <;> simp

theorem mem_escapeProblems :
    p ∈ o.escapeProblems ↔ ∃ e, Escape.unescape o.delimiter = .error e ∧ p = .invalidEscape e := by
  unfold escapeProblems
  cases Escape.unescape o.delimiter <;> simp

theorem mem_offsetProblems : p ∈ o.offsetProblems ↔ o.offset < 0 ∧ p = .negativeOffset o.offset := by
  unfold offsetProblems
  by_cases h : o.offset < 0
  · simp [h]
  · rw [if_neg h]
    simp [h]

theorem mem_ceilingProblems :
    p ∈ o.ceilingProblems ↔ o.maxMessageSize = 0 ∧ p = .zeroMaxMessageSize := by
  unfold ceilingProblems
  split <;> simp_all

theorem mem_streamProblems : p ∈ o.streamProblems ↔ o.stream = "" ∧ p = .emptyStream := by
  unfold streamProblems
  split <;> simp_all

theorem mem_delimiterProblems {digitAllowed : Bool} :
    p ∈ o.delimiterProblems digitAllowed ↔
      Escape.unescape o.delimiter = .ok [] ∧ p = .emptyDelimiter ∨
        ∃ first rest, Escape.unescape o.delimiter = .ok (first :: rest) ∧ digitAllowed = false ∧
          (48 ≤ first ∧ first ≤ 57) ∧ p = .digitDelimiter := by
  unfold delimiterProblems
  cases Escape.unescape o.delimiter with
  | error e => simp
  | ok bytes =>
    cases bytes with
    | nil => simp
    | cons first rest =>
      by_cases h : digitAllowed = false ∧ Bytes.isDigit first = true
      · obtain ⟨hallowed, hdigit⟩ := h
        simp_all [Bytes.isDigit]
      · have hfree : (!digitAllowed && Bytes.isDigit first) = false := by
          cases digitAllowed <;> simp_all
        simp only [hfree, Bool.false_eq_true, if_false, List.not_mem_nil, false_iff]
        rintro (⟨hnil, -⟩ | ⟨a, as, hread, hallowed, hdigit, -⟩)
        · cases hnil
        · obtain ⟨rfl, rfl⟩ := List.cons.inj (Except.ok.inj hread)
          exact h ⟨hallowed, by simpa [Bytes.isDigit] using hdigit⟩

theorem mem_binaryProblems (measures : kind = .binary ∨ kind = .binaryBigEndian) :
    p ∈ o.kindProblems kind ↔
      o.size.getD 4 ∉ ([1, 2, 4, 8] : List Int) ∧ p = .invalidBinarySize (o.size.getD 4) := by
  have hproblems : o.kindProblems kind =
      if (Width.ofSize? (o.size.getD 4)).isSome then [] else [.invalidBinarySize (o.size.getD 4)] := by
    rcases measures with rfl | rfl <;> rfl
  rw [hproblems, ← Width.ofSize?_isSome_iff]
  split <;> simp_all

theorem mem_fixedProblems :
    p ∈ o.kindProblems .fixed ↔
      o.size.getD 1 ≤ 0 ∧ p = .invalidFixedSize (o.size.getD 1) ∨
        ∃ size : Nat, o.size.getD 1 = size ∧ 0 < size ∧ 0 < o.maxMessageSize ∧
          o.maxMessageSize < size ∧ p = .fixedSizeExceedsMax size o.maxMessageSize := by
  have hsize : o.fixedSize = o.size.getD 1 := rfl
  rw [kindProblems, hsize]
  by_cases hsmall : o.size.getD 1 ≤ 0
  · have hnone (size : Nat) (h : o.size.getD 1 = size) : ¬ 0 < size := by omega
    rw [if_pos hsmall, List.mem_singleton]
    constructor
    · exact fun h => .inl ⟨hsmall, h⟩
    · rintro (⟨-, h⟩ | ⟨size, hgiven, hpos, -⟩)
      · exact h
      · exact absurd hpos (hnone size hgiven)
  · obtain ⟨size, hgiven⟩ := Int.eq_ofNat_of_zero_le (by omega : 0 ≤ o.size.getD 1)
    have hpos : 0 < size := by omega
    have hsame (other : Nat) (h : o.size.getD 1 = other) : other = size := by omega
    rw [if_neg hsmall, hgiven, Int.toNat_natCast]
    by_cases habove : 0 < o.maxMessageSize ∧ o.maxMessageSize < size
    · rw [if_pos habove, List.mem_singleton]
      constructor
      · exact fun h => .inr ⟨size, rfl, hpos, habove.1, habove.2, h⟩
      · rintro (⟨hle, -⟩ | ⟨other, hother, -, -, -, h⟩)
        · omega
        · rwa [hsame other (hgiven.trans hother)] at h
    · rw [if_neg habove]
      refine ⟨fun h => (List.not_mem_nil h).elim, ?_⟩
      rintro (⟨hle, -⟩ | ⟨other, hother, -, hceiling, hover, -⟩)
      · omega
      · rw [hsame other (hgiven.trans hother)] at hover
        exact absurd ⟨hceiling, hover⟩ habove

theorem mem_kindProblems : p ∈ o.kindProblems kind ↔ o.Unsuits kind p := by
  constructor
  · intro h
    cases kind with
    | delimiter =>
      rcases mem_delimiterProblems.mp h with ⟨hread, rfl⟩ | ⟨_, _, _, hallowed, _⟩
      · exact .emptyDelimiter (.inl rfl) hread
      · cases hallowed
    | ascii =>
      rcases mem_delimiterProblems.mp h with ⟨hread, rfl⟩ | ⟨_, _, hread, _, hdigit, rfl⟩
      · exact .emptyDelimiter (.inr rfl) hread
      · exact .digitDelimiter hread hdigit
    | binary =>
      obtain ⟨hother, rfl⟩ := (mem_binaryProblems (.inl rfl)).mp h
      exact .binarySize (.inl rfl) hother
    | binaryBigEndian =>
      obtain ⟨hother, rfl⟩ := (mem_binaryProblems (.inr rfl)).mp h
      exact .binarySize (.inr rfl) hother
    | fixed =>
      rcases mem_fixedProblems.mp h with ⟨hsmall, rfl⟩ | ⟨size, hgiven, hpos, hceiling, habove, rfl⟩
      · exact .fixedSize hsmall
      · exact .fixedAbove hgiven hpos hceiling habove
  · intro h
    cases h with
    | emptyDelimiter marks decoded =>
      rcases marks with rfl | rfl <;> exact mem_delimiterProblems.mpr (.inl ⟨decoded, rfl⟩)
    | digitDelimiter decoded digit =>
      exact mem_delimiterProblems.mpr (.inr ⟨_, _, decoded, rfl, digit, rfl⟩)
    | binarySize measures other => exact (mem_binaryProblems measures).mpr ⟨other, rfl⟩
    | fixedSize small => exact mem_fixedProblems.mpr (.inl ⟨small, rfl⟩)
    | fixedAbove given positive ceiling above =>
      exact mem_fixedProblems.mpr (.inr ⟨_, given, positive, ceiling, above, rfl⟩)

theorem mem_namedProblems :
    p ∈ o.kind?.elim [] o.kindProblems ↔
      ∃ kind : PartitionerKind, kind.IsCalled o.partitioner ∧ o.Unsuits kind p := by
  simp only [← PartitionerKind.ofName?_eq_some_iff, ← mem_kindProblems, kind?]
  cases PartitionerKind.ofName? o.partitioner <;> simp

/-- What is told is what is broken. -/
theorem mem_problems_iff : p ∈ o.problems ↔ o.Breaks p := by
  simp only [problems, List.mem_append, or_assoc, mem_addressProblems, mem_nameProblems,
    mem_escapeProblems, mem_offsetProblems, mem_ceilingProblems, mem_namedProblems, mem_streamProblems]
  constructor
  · rintro (h | ⟨h, rfl⟩ | ⟨e, h, rfl⟩ | ⟨h, rfl⟩ | ⟨h, rfl⟩ | ⟨kind, hcalled, h⟩ | ⟨h, rfl⟩)
    · exact .address h
    · exact .partitioner h
    · exact .delimiter h
    · exact .offset h
    · exact .maxMessageSize h
    · exact .kind hcalled h
    · exact .stream h
  · intro h
    cases h with
    | address refused => exact .inl refused
    | partitioner unknown => exact .inr (.inl ⟨unknown, rfl⟩)
    | delimiter refused => exact .inr (.inr (.inl ⟨_, refused, rfl⟩))
    | offset negative => exact .inr (.inr (.inr (.inl ⟨negative, rfl⟩)))
    | maxMessageSize zero => exact .inr (.inr (.inr (.inr (.inl ⟨zero, rfl⟩))))
    | kind called broken => exact .inr (.inr (.inr (.inr (.inr (.inl ⟨_, called, broken⟩)))))
    | stream empty => exact .inr (.inr (.inr (.inr (.inr (.inr ⟨empty, rfl⟩)))))

/-- The part of the check that tells a problem. -/
def part : Problem → Nat
  | .unsupportedProtocol _ | .invalidAddress _ => 0
  | .unknownPartitioner _ => 1
  | .invalidEscape _ => 2
  | .negativeOffset _ => 3
  | .zeroMaxMessageSize => 4
  | .emptyDelimiter | .digitDelimiter | .invalidBinarySize _ | .invalidFixedSize _
  | .fixedSizeExceedsMax .. => 5
  | .emptyStream => 6

theorem part_kindProblems (o : Options) (kind : PartitionerKind) :
    ((o.kindProblems kind).map part).Sublist [5] := by
  have hdelimiter (digitAllowed : Bool) :
      ((o.delimiterProblems digitAllowed).map part).Sublist [5] := by
    unfold delimiterProblems
    split
    · simp
    · simp [part]
    · split <;> simp [part]
  cases kind with
  | delimiter => exact hdelimiter true
  | ascii => exact hdelimiter false
  | binary | binaryBigEndian =>
    simp only [kindProblems]
    split <;> simp [part]
  | fixed =>
    simp only [kindProblems]
    repeat' split
    all_goals simp [part]

/-- Each part tells one problem at most, and no problem is told by two. -/
theorem part_problems (o : Options) : (o.problems.map part).Sublist [0, 1, 2, 3, 4, 5, 6] := by
  have haddress : (o.addressProblems.map part).Sublist [0] := by
    unfold addressProblems
    split
    · simp
    · rename_i p hp
      rcases ListenAddress.parse_error hp with rfl | ⟨protocol, rfl⟩ <;> simp [part]
  have hname : (o.nameProblems.map part).Sublist [1] := by
    unfold nameProblems
    split <;> simp [part]
  have hescape : (o.escapeProblems.map part).Sublist [2] := by
    unfold escapeProblems
    split <;> simp [part]
  have hoffset : (o.offsetProblems.map part).Sublist [3] := by
    unfold offsetProblems
    split <;> simp [part]
  have hceiling : (o.ceilingProblems.map part).Sublist [4] := by
    unfold ceilingProblems
    split <;> simp [part]
  have hkind : ((o.kind?.elim [] o.kindProblems).map part).Sublist [5] := by
    cases o.kind? with
    | none => simp
    | some kind => exact part_kindProblems o kind
  have hstream : (o.streamProblems.map part).Sublist [6] := by
    unfold streamProblems
    split <;> simp [part]
  simp only [problems, List.map_append]
  exact (((((haddress.append hname).append hescape).append hoffset).append hceiling).append
    hkind).append hstream

theorem nodup_problems (o : Options) : o.problems.Nodup :=
  List.Nodup.of_map part ((part_problems o).nodup (by decide))

/-- Options that break no rule are acceptable. -/
theorem acceptable_of_clean (h : ∀ p, ¬ o.Breaks p) : o.Acceptable := by
  have hdelimiter : ∃ bytes, Escape.unescape o.delimiter = .ok bytes := by
    cases hread : Escape.unescape o.delimiter with
    | ok bytes => exact ⟨bytes, rfl⟩
    | error e => exact absurd (.delimiter hread) (h _)
  refine ⟨?_, ?_, hdelimiter, ?_, ?_, fun hs => h _ (.stream hs), ?_⟩
  · cases haddress : ListenAddress.parse o.address with
    | ok address => exact ⟨address, rfl⟩
    | error p => exact absurd (.address haddress) (h p)
  · by_contra hnone
    exact h _ (.partitioner (not_exists.mp hnone))
  · exact Int.not_lt.mp fun ho => h _ (.offset ho)
  · exact Nat.pos_of_ne_zero fun hm => h _ (.maxMessageSize hm)
  · intro kind called
    have hclean (p : Problem) : ¬ o.Unsuits kind p := fun hp => h p (.kind called hp)
    obtain ⟨bytes, hread⟩ := hdelimiter
    have hmarks (marks : kind = .delimiter ∨ kind = .ascii) : bytes ≠ [] := by
      rintro rfl
      exact hclean _ (.emptyDelimiter marks hread)
    cases kind with
    | delimiter => exact ⟨bytes, hread, hmarks (.inl rfl)⟩
    | ascii =>
      obtain ⟨first, rest, rfl⟩ := List.exists_cons_of_ne_nil (hmarks (.inr rfl))
      exact ⟨first, rest, hread, fun hdigit => hclean _ (.digitDelimiter hread hdigit)⟩
    | binary =>
      by_contra hother
      exact hclean _ (.binarySize (.inl rfl) hother)
    | binaryBigEndian =>
      by_contra hother
      exact hclean _ (.binarySize (.inr rfl) hother)
    | fixed =>
      have hpos : 0 < o.size.getD 1 := Int.not_le.mp fun hs => hclean _ (.fixedSize hs)
      obtain ⟨size, hgiven⟩ := Int.eq_ofNat_of_zero_le (Int.le_of_lt hpos)
      refine ⟨hpos, ?_⟩
      by_contra habove
      refine hclean _ (.fixedAbove hgiven (by omega) ?_ (by omega))
      exact Nat.pos_of_ne_zero fun hm => h _ (.maxMessageSize hm)

theorem Suits.clean (suits : o.Suits kind) : ¬ o.Unsuits kind p := by
  intro h
  cases h with
  | emptyDelimiter marks decoded =>
    rcases marks with rfl | rfl
    · obtain ⟨bytes, hread, hsome⟩ := suits
      exact hsome (Except.ok.inj (hread.symm.trans decoded))
    · obtain ⟨first, rest, hread, -⟩ := suits
      cases hread.symm.trans decoded
  | digitDelimiter decoded digit =>
    obtain ⟨first, rest, hread, hdigit⟩ := suits
    obtain ⟨rfl, rfl⟩ := List.cons.inj (Except.ok.inj (hread.symm.trans decoded))
    exact hdigit digit
  | binarySize measures other =>
    rcases measures with rfl | rfl <;> exact other suits
  | fixedSize small => exact absurd suits.1 (by omega)
  | fixedAbove given positive ceiling above => exact absurd suits.2 (by omega)

theorem Acceptable.clean (h : o.Acceptable) : ¬ o.Breaks p := by
  intro hp
  cases hp with
  | address refused =>
    obtain ⟨address, hparse⟩ := h.address
    cases hparse.symm.trans refused
  | partitioner unknown =>
    obtain ⟨kind, called⟩ := h.partitioner
    exact unknown kind called
  | delimiter refused =>
    obtain ⟨bytes, hread⟩ := h.delimiter
    cases hread.symm.trans refused
  | offset negative => exact absurd h.offset (Int.not_le.mpr negative)
  | maxMessageSize zero => exact absurd h.maxMessageSize (by omega)
  | stream empty => exact h.stream empty
  | kind called broken => exact (h.suits _ called).clean broken

theorem acceptable_iff : o.Acceptable ↔ o.problems = [] := by
  rw [List.eq_nil_iff_forall_not_mem]
  simp only [mem_problems_iff]
  exact ⟨fun h _ => h.clean, acceptable_of_clean⟩

theorem delimiter?_of_decoded {bytes : Bytes} (decoded : Escape.unescape o.delimiter = .ok bytes)
    (some : bytes ≠ []) : o.delimiter? = .some ⟨bytes, some⟩ := by
  rw [delimiter?, decoded]
  exact dif_neg some

/-- A kind that suits the options is described by them, and it is found. -/
theorem Suits.describes (suits : o.Suits kind) (called : kind.IsCalled o.partitioner)
    (offset : 0 ≤ o.offset) : ∃ p, o.describe? kind = some p ∧ o.Describes p := by
  have hoffset : o.offset = o.offset.toNat := (Int.toNat_of_nonneg offset).symm
  have hwidth (h : o.size.getD 4 ∈ ([1, 2, 4, 8] : List Int)) :
      ∃ width, Width.ofSize? o.binarySize = some width ∧ o.size.getD 4 = width.bytes := by
    obtain ⟨width, hw⟩ := Option.isSome_iff_exists.mp (Width.ofSize?_isSome_iff.mpr h)
    exact ⟨width, hw, Width.ofSize?_eq_some_iff.mp hw⟩
  cases kind with
  | delimiter =>
    obtain ⟨bytes, hread, hsome⟩ := suits
    refine ⟨.delimiter ⟨bytes, hsome⟩ o.maxMessageSize, ?_, .delimiter called hread⟩
    rw [describe?, delimiter?_of_decoded hread hsome, Option.map_some]
  | ascii =>
    obtain ⟨first, rest, hread, -⟩ := suits
    have hsome : first :: rest ≠ [] := List.cons_ne_nil first rest
    refine ⟨.ascii o.offset.toNat ⟨first :: rest, hsome⟩ o.maxMessageSize, ?_,
      .ascii called hread hoffset⟩
    rw [describe?, delimiter?_of_decoded hread hsome, Option.map_some]
  | binary =>
    obtain ⟨width, hw, hwide⟩ := hwidth suits
    refine ⟨_, ?_, .little called hoffset hwide⟩
    rw [describe?, hw, Option.map_some]
  | binaryBigEndian =>
    obtain ⟨width, hw, hwide⟩ := hwidth suits
    refine ⟨_, ?_, .big called hoffset hwide⟩
    rw [describe?, hw, Option.map_some]
  | fixed =>
    obtain ⟨size, hgiven⟩ := Int.eq_ofNat_of_zero_le (Int.le_trans (by decide) suits.1)
    have hpos : 0 < size := by have := suits.1; omega
    refine ⟨_, ?_, .fixed hpos called hgiven⟩
    have hsize : o.fixedSize.toNat = size := by rw [fixedSize, defaultFixedSize, hgiven]; rfl
    rw [describe?, hsize, Partitioner.fixed?, dif_pos hpos]

theorem Acceptable.configured (h : o.Acceptable) :
    ∃ config, o.config? = some config ∧ ListenAddress.parse o.address = .ok config.address ∧
      o.Describes config.partitioner ∧ config.stream = o.stream := by
  obtain ⟨address, haddress⟩ := h.address
  obtain ⟨kind, called⟩ := h.partitioner
  obtain ⟨p, hp, hdescribes⟩ := (h.suits kind called).describes called h.offset
  refine ⟨⟨address, p, o.stream⟩, ?_, haddress, hdescribes, rfl⟩
  have hkind : o.kind? = some kind := PartitionerKind.ofName?_eq_some_iff.mpr called
  simp [config?, haddress, hkind, hp, Except.toOption]

/-- The check accepts exactly the acceptable options, and of those it makes what they describe. Of all others
it tells every broken rule, once, and nothing else. -/
theorem validate_settles (o : Options) :
    match o.validate with
    | .ok config =>
      o.Acceptable ∧ ListenAddress.parse o.address = .ok config.address ∧
        o.Describes config.partitioner ∧ config.stream = o.stream
    | .error problems =>
      ¬ o.Acceptable ∧ problems ≠ [] ∧ problems.Nodup ∧ ∀ p, p ∈ problems ↔ o.Breaks p := by
  by_cases h : o.Acceptable
  · obtain ⟨config, hconfig, hmade⟩ := h.configured
    have hvalidate : o.validate = .ok config := by
      rw [validate, acceptable_iff.mp h, hconfig]
    rw [hvalidate]
    exact ⟨h, hmade⟩
  · have hsome : o.problems ≠ [] := fun hnone => h (acceptable_iff.mpr hnone)
    have hvalidate : o.validate = .error o.problems := by
      unfold validate
      split
      · contradiction
      · rfl
    rw [hvalidate]
    exact ⟨h, hsome, nodup_problems o, fun p => mem_problems_iff⟩

end Options

end FrameIntake
