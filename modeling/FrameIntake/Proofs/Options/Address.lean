import FrameIntake.Options.Address
import FrameIntake.Proofs.Text.Split

/-!
What texts mean as addresses, said without reading them (`Means`): a protocol in front of the first `://`, a host and
a port around the last colon. An address that was read is read again from its printed form
(`addresses_survive_printing`).
-/

namespace FrameIntake

theorem Text.natural?_isSome_iff {cs : List Char} {limit : Nat} (hl : 0 < limit) :
    (natural? limit cs).isSome = true ↔
      cs ≠ [] ∧ (∀ c ∈ cs, '0' ≤ c ∧ c ≤ '9') ∧ value 10 cs < limit := by
  have hguard : (!cs.isEmpty && cs.all Text.isDecimal) = true ↔
      cs ≠ [] ∧ ∀ c ∈ cs, '0' ≤ c ∧ c ≤ '9' := by
    simp [isDecimal]
  by_cases hdigits : cs ≠ [] ∧ ∀ c ∈ cs, '0' ≤ c ∧ c ≤ '9'
  · rw [natural?, if_pos (hguard.mpr hdigits), valueBelow?_eq (by decide) hl, ← and_assoc,
      and_iff_right hdigits]
    simp [Option.filter]
  · rw [natural?, if_neg (mt hguard.mp hdigits), ← and_assoc]
    simp [hdigits]

namespace ListenAddress

/-- `protocol` stands before the first `://` of the address, and `target` behind it. -/
def Names (address protocol target : String) : Prop :=
  Text.SplitsFirst "://".toList address.toList protocol.toList target.toList

/-- The address names no protocol. -/
def Bare (address : String) : Prop := ∀ before behind, address ≠ before ++ "://" ++ behind

/-- A port number as it may be written: digits, also behind a plus sign. -/
def IsPort (port : String) : Prop :=
  ∃ digits, (port.toList = digits ∨ port.toList = '+' :: digits) ∧ digits ≠ [] ∧
    (∀ c ∈ digits, '0' ≤ c ∧ c ≤ '9') ∧ Text.value 10 digits < 65536

/-- A host as it may be written, also as none: without a colon, or in brackets. -/
def IsHost (host : String) : Prop :=
  ':' ∉ host.toList ∨ host.toList.head? = some '[' ∧ host.toList.getLast? = some ']'

/-- What is listened on for a written host and port. -/
inductive Target : (written target : String) → Prop
  | host {host port} (named : host ≠ "") (stands : IsHost host) (number : IsPort port) :
      Target (host ++ ":" ++ port) (host ++ ":" ++ port)
  | any {port} (number : IsPort port) : Target (":" ++ port) ("0.0.0.0" ++ ":" ++ port)

/-- A protocol in lower case. -/
def lower (protocol : String) : String := String.ofList (protocol.toList.map Char.toLower)

/-- What an address means, if it means anything. -/
inductive Means (address : String) : ListenAddress → Prop
  | bare {target} (bare : Bare address) (reads : Target address target) : Means address (.tcp target)
  | tcp {protocol written target} (names : Names address protocol written)
      (known : lower protocol ∈ ["tcp", "tcp4", "tcp6"]) (reads : Target written target) :
      Means address (.tcp target)
  | unix {protocol path} (names : Names address protocol path) (known : lower protocol = "unix")
      (nonempty : path ≠ "") : Means address (.unix path)

section Port

variable {port : String}

theorem isPort_iff :
    (Text.unsigned? SocketAddress.portLimit port.toList).isSome = true ↔ IsPort port := by
  have hl : 0 < SocketAddress.portLimit := by decide
  unfold Text.unsigned? IsPort
  split
  · rename_i rest hsign
    rw [Text.natural?_isSome_iff hl]
    constructor
    · exact fun h => ⟨rest, .inr hsign, h⟩
    · rintro ⟨digits, hport | hport, hne, hdigits, hvalue⟩
      · have hplus := hdigits '+' (by rw [← hport, hsign]; exact List.mem_cons_self)
        exact absurd hplus (by decide)
      · obtain ⟨-, rfl⟩ := List.cons.inj (hsign.symm.trans hport)
        exact ⟨hne, hdigits, hvalue⟩
  · rename_i hsign
    rw [Text.natural?_isSome_iff hl]
    constructor
    · exact fun h => ⟨port.toList, .inl rfl, h⟩
    · rintro ⟨digits, hport | hport, h⟩
      · rwa [hport]
      · exact absurd hport (hsign digits)

theorem IsPort.colon (h : IsPort port) : ':' ∉ port.toList := by
  obtain ⟨digits, hport, -, hdigits, -⟩ := h
  have hcolon : ':' ∉ digits := by
    intro hc
    exact absurd (hdigits ':' hc) (by decide)
  rcases hport with hport | hport
  · rwa [hport]
  · rw [hport, List.mem_cons, not_or]
    exact ⟨by decide, hcolon⟩

end Port

section Target

variable {host port written target : String}

theorem isHost_iff : isHost host.toList = true ↔ IsHost host := by
  simp [isHost, IsHost]

/-- Without a host, all interfaces are written. -/
theorem written_host (host port : String) :
    String.ofList ((if host.toList.isEmpty then anyHost else host.toList) ++ ':' :: port.toList) =
      (if host = "" then "0.0.0.0" else host) ++ ":" ++ port := by
  have hany : anyHost = "0.0.0.0".toList := rfl
  apply String.ext
  by_cases hnone : host = ""
  · subst hnone
    simp [hany]
  · simp [hnone]

theorem readTarget?_joined (stands : IsHost host) (number : IsPort port) :
    readTarget? (host ++ ":" ++ port).toList = some ((if host = "" then "0.0.0.0" else host) ++ ":" ++ port) := by
  have hsplit : Text.splitLast? ':' (host ++ ":" ++ port).toList = some (host.toList, port.toList) :=
    Text.splitLast?_eq_some_iff.mpr ⟨by simp, number.colon⟩
  rw [readTarget?, hsplit, Option.bind_some]
  dsimp only
  rw [isPort_iff.mpr number, isHost_iff.mpr stands, ← written_host]
  rfl

theorem joined_of_readTarget? (h : readTarget? written.toList = some target) :
    ∃ host port, written = host ++ ":" ++ port ∧ IsHost host ∧ IsPort port := by
  obtain ⟨⟨host, port⟩, hsplit, hread⟩ := Option.bind_eq_some_iff.mp h
  obtain ⟨hwritten, -⟩ := Text.splitLast?_eq_some_iff.mp hsplit
  rw [← String.toList_ofList (l := host), ← String.toList_ofList (l := port)] at hwritten hread
  have hjoined : written = String.ofList host ++ ":" ++ String.ofList port := by
    apply String.ext
    simpa using hwritten
  dsimp only at hread
  split at hread
  · rename_i hguard
    rw [Bool.and_eq_true, isPort_iff, isHost_iff] at hguard
    exact ⟨_, _, hjoined, hguard.2, hguard.1⟩
  · contradiction

theorem readTarget?_eq_some_iff : readTarget? written.toList = some target ↔ Target written target := by
  constructor
  · intro h
    obtain ⟨host, port, rfl, stands, number⟩ := joined_of_readTarget? h
    rw [readTarget?_joined stands number, Option.some.injEq] at h
    subst h
    by_cases hnone : host = ""
    · subst hnone
      exact .any number
    · rw [if_neg hnone]
      exact .host hnone stands number
  · intro h
    cases h with
    | host named stands number => rw [readTarget?_joined stands number, if_neg named]
    | any number =>
      have hnone : IsHost "" := .inl (by simp)
      have hread := readTarget?_joined hnone number
      rwa [String.empty_append, if_pos rfl] at hread

theorem Target.parts (h : Target written target) :
    ∃ host port, target = host ++ ":" ++ port ∧ host ≠ "" ∧ IsHost host ∧ IsPort port := by
  cases h with
  | @host host port named stands number => exact ⟨host, port, rfl, named, stands, number⟩
  | @any port number => exact ⟨"0.0.0.0", port, rfl, by decide, .inl (by decide), number⟩

/-- What is listened on is read as itself. -/
theorem Target.again (h : Target written target) : Target target target := by
  obtain ⟨host, port, rfl, named, stands, number⟩ := h.parts
  exact .host named stands number

end Target

section Protocol

variable {address protocol target : String} {a : ListenAddress}

theorem splitFirst?_names :
    Text.splitFirst? "://".toList address.toList = some (protocol.toList, target.toList) ↔
      Names address protocol target :=
  Text.splitFirst?_eq_some_iff (by decide)

theorem splitProtocol_of_names (h : Names address protocol target) :
    splitProtocol address = (lower protocol, target.toList) := by
  rw [splitProtocol, splitFirst?_names.mpr h]
  rfl

theorem splitProtocol_of_bare (h : Bare address) : splitProtocol address = ("tcp", address.toList) := by
  have hnone : Text.splitFirst? "://".toList address.toList = none := by
    rw [Text.splitFirst?_eq_none_iff (by decide)]
    intro before behind hjoined
    apply h (String.ofList before) (String.ofList behind)
    apply String.ext
    simpa using hjoined
  rw [splitProtocol, hnone]

theorem bare_or_names (address : String) : Bare address ∨ ∃ protocol target, Names address protocol target := by
  cases hsplit : Text.splitFirst? "://".toList address.toList with
  | none =>
    left
    rintro before behind rfl
    exact (Text.splitFirst?_eq_none_iff (by decide)).mp hsplit before.toList behind.toList (by simp)
  | some parts =>
    right
    refine ⟨String.ofList parts.1, String.ofList parts.2, splitFirst?_names.mp ?_⟩
    rw [hsplit, String.toList_ofList, String.toList_ofList]

theorem lower_tcp_iff : lower protocol ∈ ["tcp", "tcp4", "tcp6"] ↔
    lower protocol = "tcp" ∨ lower protocol = "tcp4" ∨ lower protocol = "tcp6" := by
  simp

theorem Means.parse_eq (h : Means address a) : parse address = .ok a := by
  unfold parse
  cases h with
  | bare bare reads =>
    rw [splitProtocol_of_bare bare]
    dsimp only
    rw [if_pos (.inl rfl), readTarget?_eq_some_iff.mpr reads]
  | tcp names known reads =>
    rw [splitProtocol_of_names names]
    dsimp only
    rw [if_pos (lower_tcp_iff.mp known), readTarget?_eq_some_iff.mpr reads]
  | unix names known nonempty =>
    rw [splitProtocol_of_names names]
    dsimp only
    rw [known, if_neg (by decide), if_pos rfl, if_neg (by simpa using nonempty), String.ofList_toList]

theorem means_of_parse (h : parse address = .ok a) : Means address a := by
  unfold parse at h
  rcases bare_or_names address with hbare | ⟨protocol, target, hnames⟩
  · rw [splitProtocol_of_bare hbare] at h
    dsimp only at h
    rw [if_pos (.inl rfl)] at h
    split at h
    · rename_i hread
      obtain rfl := Except.ok.inj h
      exact .bare hbare (readTarget?_eq_some_iff.mp hread)
    · contradiction
  · rw [splitProtocol_of_names hnames] at h
    dsimp only at h
    split at h
    · rename_i htcp
      split at h
      · rename_i hread
        obtain rfl := Except.ok.inj h
        exact .tcp hnames (lower_tcp_iff.mpr htcp) (readTarget?_eq_some_iff.mp hread)
      · contradiction
    · split at h
      · rename_i hunix
        split at h
        · contradiction
        · rename_i hpath
          obtain rfl := Except.ok.inj h
          rw [String.ofList_toList]
          exact .unix hnames hunix (by simpa using hpath)
      · contradiction

theorem parse_eq_ok_iff : parse address = .ok a ↔ Means address a := ⟨means_of_parse, Means.parse_eq⟩

theorem parse_of_unknown (h : Names address protocol target)
    (unknown : lower protocol ∉ ["tcp", "tcp4", "tcp6", "unix"]) :
    parse address = .error (.unsupportedProtocol (lower protocol)) := by
  simp only [List.mem_cons, List.not_mem_nil, or_false, not_or] at unknown
  obtain ⟨htcp, htcp4, htcp6, hunix⟩ := unknown
  unfold parse
  rw [splitProtocol_of_names h]
  dsimp only
  rw [if_neg (by simp [htcp, htcp4, htcp6]), if_neg hunix]

theorem names_of_plain (protocol target : String) (plain : ':' ∉ protocol.toList) :
    Names (protocol ++ "://" ++ target) protocol target := by
  unfold Names
  rw [String.toList_append, String.toList_append]
  exact Text.splitsFirst_of_not_mem plain

/-- The printed form means the same address. -/
theorem Means.again (h : Means address a) : Means a.display a := by
  cases h with
  | @bare target _ reads | @tcp _ _ target _ _ reads =>
    exact .tcp (names_of_plain "tcp" target (by decide)) (by decide) reads.again
  | @unix _ path _ _ nonempty =>
    exact .unix (names_of_plain "unix" path (by decide)) (by decide) nonempty

theorem Means.target_parts (h : Means address (.tcp target)) :
    ∃ host port, target = host ++ ":" ++ port ∧ host ≠ "" ∧ IsHost host ∧ IsPort port := by
  cases h with
  | bare _ reads | tcp _ _ reads => exact reads.parts

end Protocol

/-- Each address that is read is read again from its printed form. TCP is listened for on a host and a port, the host
in brackets if there is a colon in it, and else on a path that is all that stands behind the first `://`. No protocol
but these is read, and any other is named in lower case. -/
theorem addresses_survive_printing :
    (∀ s a, parse s = .ok a ↔ Means s a) ∧
      (∀ s a, parse s = .ok a → parse a.display = .ok a) ∧
      (∀ s target, parse s = .ok (.tcp target) →
        ∃ host port, target = host ++ ":" ++ port ∧ host ≠ "" ∧ ':' ∉ port.toList ∧ IsPort port ∧ IsHost host) ∧
      (∀ s path, parse s = .ok (.unix path) → path ≠ "" ∧ ∃ protocol, Names s protocol path) ∧
      (∀ s a, parse s = .ok a →
        Bare s ∨ ∃ protocol target, Names s protocol target ∧
          lower protocol ∈ ["tcp", "tcp4", "tcp6", "unix"]) ∧
      ∀ s protocol target, Names s protocol target → lower protocol ∉ ["tcp", "tcp4", "tcp6", "unix"] →
        parse s = .error (.unsupportedProtocol (lower protocol)) := by
  refine ⟨fun s a => parse_eq_ok_iff, ?_, ?_, ?_, ?_, ?_⟩
  · intro s a h
    exact (means_of_parse h).again.parse_eq
  · intro s target h
    obtain ⟨host, port, htarget, named, stands, number⟩ := (means_of_parse h).target_parts
    exact ⟨host, port, htarget, named, number.colon, number, stands⟩
  · intro s path h
    cases means_of_parse h with
    | unix names _ nonempty => exact ⟨nonempty, _, names⟩
  · intro s a h
    cases means_of_parse h with
    | bare bare _ => exact .inl bare
    | tcp names known _ => exact .inr ⟨_, _, names, List.mem_append_left ["unix"] known⟩
    | unix names known _ => exact .inr ⟨_, _, names, by simp [known]⟩
  · intro s protocol target names unknown
    exact parse_of_unknown names unknown

/-- A protocol in capitals, and a host that holds `://` itself, with a port behind a plus sign; no host; a path that
begins like an address; and a protocol that no address has. -/
theorem addresses_survive_printing_nested :
    parse "TCP4://[a://b]:+080" = .ok (.tcp "[a://b]:+080") ∧
      parse "tcp://[a://b]:+080" = .ok (.tcp "[a://b]:+080") ∧
      parse ":5880" = .ok (.tcp "0.0.0.0:5880") ∧
      (∃ host port, "0.0.0.0:5880" = host ++ ":" ++ port ∧ host ≠ "" ∧ ':' ∉ port.toList ∧ IsPort port ∧
        IsHost host) ∧
      parse "unix://tcp://x" = .ok (.unix "tcp://x") ∧
      (∃ protocol, Names "unix://tcp://x" protocol "tcp://x") ∧
      parse "Udp://tcp://x:1" = .error (.unsupportedProtocol "udp") := by
  obtain ⟨-, hagain, htarget, hpath, -, hunknown⟩ := addresses_survive_printing
  have hhost : parse "TCP4://[a://b]:+080" = .ok (.tcp "[a://b]:+080") := rfl
  have hany : parse ":5880" = .ok (.tcp "0.0.0.0:5880") := rfl
  have hunix : parse "unix://tcp://x" = .ok (.unix "tcp://x") := rfl
  have hnames : Names "Udp://tcp://x:1" "Udp" "tcp://x:1" := splitFirst?_names.mp rfl
  exact ⟨hhost, hagain _ _ hhost, hany, htarget _ _ hany, hunix, (hpath _ _ hunix).2,
    hunknown _ _ _ hnames (by decide)⟩

end ListenAddress

end FrameIntake
