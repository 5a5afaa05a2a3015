import FrameIntake.Proofs.MessageReader.Answer

/-!
Streams with ends in the middle. An end of the stream starts over behind it, so the reads fall into
segments, each of which is cut from its own start. What the polls of a reader deliver is what the cuts of
the segments say, in that order (`polls_coming`).
-/

namespace FrameIntake

namespace Read

/-- The bytes between one end of the stream and the next. -/
def segments (reads : List Read) : List Bytes := (reads.splitOnP (· == .ended)).map joined

@[simp] theorem segments_nil : segments [] = [[]] := rfl

@[simp] theorem segments_ended (reads : List Read) : segments (.ended :: reads) = [] :: segments reads := by
  simp [segments, List.splitOnP_cons_eq_if_modifyHead]

theorem segments_cons {read : Read} (h : read ≠ .ended) (reads : List Read) :
    segments (read :: reads) = (segments reads).modifyHead (read.bytes ++ ·) := by
  have hb : (read == .ended) = false := beq_eq_false_iff_ne.mpr h
  simp only [segments, List.splitOnP_cons_eq_if_modifyHead, hb, Bool.false_eq_true, if_false]
  cases hs : reads.splitOnP (· == .ended) with
  | nil => exact absurd hs (List.splitOnP_ne_nil _ _)
  | cons segment segments => rfl

theorem exists_segments (reads : List Read) :
    ∃ segment later, segments reads = segment :: later := by
  apply List.exists_cons_of_ne_nil
  intro h
  exact List.splitOnP_ne_nil _ _ (List.map_eq_nil_iff.mp h)

/-- Bytes that are taken belong to the first segment. -/
theorem Supplies.segments {reads rest : List Read} {taken : Bytes} (h : Supplies reads taken rest) :
    segments reads = (segments rest).modifyHead (taken ++ ·) := by
  induction h with
  | stop =>
    rename_i reads
    obtain ⟨segment, later, hs⟩ := exists_segments reads
    simp [hs]
  | whole hb hs ih =>
    rename_i bytes reads taken rest
    obtain ⟨segment, later, hr⟩ := exists_segments rest
    rw [segments_cons (by simpa [Read.ended] using hb), ih, hr]
    simp [Read.bytes]
  | part hb hl hs ih =>
    rename_i bytes left reads taken rest
    obtain ⟨segment, later, hr⟩ := exists_segments rest
    obtain ⟨first, more, hf⟩ := exists_segments reads
    rw [segments_cons (by simpa [Read.ended] using hl), hr, hf] at ih
    rw [segments_cons (by simp [Read.ended, hb]), hr, hf]
    simp only [List.modifyHead_cons, Read.bytes, List.cons.injEq] at ih ⊢
    simp [ih]

end Read

namespace Item

def message? : Item → Option Message
  | .message m => some m
  | _ => none

/-- A message, or the count of bytes that an end of the stream has dropped. -/
def isDelivery : Item → Bool
  | .message _ => true
  | .error (.trailing _) => true
  | _ => false

def delivery (item : Item) : List Item := if item.isDelivery then [item] else []

end Item

namespace Partitioner

/-- The frames of all segments, up to the first fault. -/
def framesOf (p : Partitioner) : List Bytes → List Frame
  | [] => []
  | segment :: segments =>
    (p.cut segment).frames ++ if (p.cut segment).fault.isSome then [] else p.framesOf segments

/-- What all segments deliver, up to the first fault: their frames, and behind them the count of bytes
that are left, if there are any. -/
def deliveries (p : Partitioner) (stream : String) : List Bytes → List Item
  | [] => []
  | segment :: segments =>
    (p.cut segment).frames.map (fun f => .message (f.message stream)) ++
      if (p.cut segment).fault.isSome then []
      else
        (if (p.cut segment).rest = [] then [] else [.error (.trailing (p.cut segment).rest.length)]) ++
          p.deliveries stream segments

variable {p : Partitioner} {stream : String} {segment : Bytes} {segments : List Bytes}

theorem deliveries_messages (p : Partitioner) (stream : String) (segments : List Bytes) :
    (p.deliveries stream segments).filterMap Item.message? =
      (p.framesOf segments).map (·.message stream) := by
  induction segments with
  | nil => rfl
  | cons segment segments ih =>
    have hm : ((p.cut segment).frames.map fun f => Item.message (f.message stream)).filterMap
        Item.message? = (p.cut segment).frames.map (·.message stream) := by
      rw [List.filterMap_map]
      exact congrFun List.filterMap_eq_map _
    simp only [deliveries, framesOf, List.filterMap_append, List.map_append, hm]
    cases (p.cut segment).fault with
    | some e => rfl
    | none =>
      cases (p.cut segment).rest with
      | nil => simpa using ih
      | cons b bs =>
        simp only [List.cons_ne_nil, if_false, List.singleton_append, Option.isSome_none,
          Bool.false_eq_true, List.filterMap_cons, Item.message?, ih]

@[simp] theorem deliveries_nil_cons :
    p.deliveries stream ([] :: segments) = p.deliveries stream segments := by
  simp [deliveries]

theorem deliveries_of_found {b : Bounds} (h : p.extract segment 0 = .found b) (more : Bytes) :
    p.deliveries stream ((segment ++ more) :: segments) =
      .message ((b.frame segment).message stream) ::
        p.deliveries stream ((segment.drop b.stop ++ more) :: segments) := by
  simp [deliveries, cut_append_of_found h]

theorem deliveries_of_malformed {e : FramingError} (h : p.extract segment 0 = .malformed e)
    (more : Bytes) : p.deliveries stream ((segment ++ more) :: segments) = [] := by
  obtain ⟨later, _, hc⟩ := cut_append_of_malformed h more
  simp [deliveries, hc]

theorem deliveries_of_needMore {k : Nat} (h : p.extract segment 0 = .needMore k) (hs : segment ≠ []) :
    p.deliveries stream (segment :: segments) =
      .error (.trailing segment.length) :: p.deliveries stream segments := by
  simp [deliveries, cut_of_needMore h, hs]

end Partitioner

namespace MessageReader

variable {held : Bool} {r r' : MessageReader} {reads rest : List Read} {buf : Bytes} {item : Item}

/-- What is still to be delivered: the buffer stands in front of the next segment. -/
def coming (r : MessageReader) (reads : List Read) : List Item :=
  r.decoder.partitioner.deliveries r.stream
    ((Read.segments reads).modifyHead (r.decoder.buffer ++ ·))

/-- A bound on the polls until everything is delivered. -/
def toPoll (r : MessageReader) (reads : List Read) : Nat :=
  2 * r.holding reads + r.errored.toNat

theorem coming_of_buffer {segment : Bytes} {later : List Bytes} (h : r.decoder.buffer = buf)
    (akin : r'.Akin r) (hs : Read.segments reads = segment :: later) :
    r.coming reads = r'.decoder.partitioner.deliveries r'.stream ((buf ++ segment) :: later) := by
  rw [coming, hs, h, akin.1, akin.2]
  rfl

theorem Reaches.coming {segment : Bytes} {later : List Bytes} (h : r.Reaches reads buf rest)
    (hs : Read.segments rest = segment :: later) :
    r.coming reads = r.decoder.partitioner.deliveries r.stream ((buf ++ segment) :: later) := by
  obtain ⟨taken, hsup, rfl⟩ := h
  rw [MessageReader.coming, hsup.segments, hs]
  simp

theorem Reaches.holding (h : r.Reaches reads buf rest) :
    buf.length + total Read.size rest + rest.length ≤ r.holding reads := by
  obtain ⟨taken, hsup, rfl⟩ := h
  have hj := congrArg List.length hsup.joined
  have hl := hsup.length_le
  rw [List.length_append, Read.length_joined, Read.length_joined] at hj
  simp only [MessageReader.holding, buffered, List.length_append]
  omega

/-- Nothing comes behind bytes that are malformed. -/
theorem coming_of_malformed {e : FramingError} (akin : r.Akin r') (h : r'.decoder.buffer = buf)
    (refused : r.decoder.partitioner.extract buf 0 = .malformed e) (reads : List Read) :
    r'.coming reads = [] := by
  obtain ⟨segment, later, hs⟩ := Read.exists_segments reads
  rw [coming_of_buffer h akin hs]
  exact Partitioner.deliveries_of_malformed refused segment

/-- The end of a stream, or of all reads, ends the segment of the buffer. -/
theorem coming_of_end (h : r.Reaches reads buf rest)
    {rest' : List Read} (next : Afterwards.ends.next rest = (.ended, rest')) :
    r.coming reads = r.decoder.partitioner.deliveries r.stream (buf :: Read.segments rest') := by
  cases rest with
  | nil =>
    cases next
    rw [h.coming Read.segments_nil, List.append_nil]
    simp [Partitioner.deliveries]
  | cons read rest =>
    cases next
    rw [h.coming (Read.segments_ended rest'), List.append_nil]

theorem next_le {read : Read} {last : List Read} (h : Afterwards.ends.next last = (read, rest)) :
    total Read.size rest + rest.length ≤ total Read.size last + last.length := by
  cases last with
  | nil =>
    cases h
    exact Nat.le_refl _
  | cons first last =>
    cases h
    simp only [total_cons, List.length_cons]
    omega

theorem toPoll_lt {r' : MessageReader}
    (h : r'.holding rest + 1 ≤ r.holding reads) : r'.toPoll rest < r.toPoll reads := by
  have := r'.errored.toNat_le
  simp only [toPoll]
  omega

/-- A read that brings neither bytes nor the end changes nothing. -/
theorem coming_of_nothing {read : Read} {last : List Read} (reached : r.Reaches reads buf last)
    (next : Afterwards.ends.next last = (read, rest)) (going : read ≠ .ended)
    (hb : read.bytes = []) (akin : r.Akin r') (kept : r'.decoder.buffer = buf) :
    r.coming reads = r'.coming rest ∧ r'.toPoll rest < r.toPoll reads := by
  cases last with
  | nil =>
    cases next
    contradiction
  | cons first last =>
    cases next
    obtain ⟨segment, later, hs⟩ := Read.exists_segments rest
    have hs' : Read.segments (read :: rest) = segment :: later := by
      rw [Read.segments_cons going, hs, hb]
      rfl
    have hh := reached.holding
    refine ⟨?_, toPoll_lt ?_⟩
    · rw [reached.coming hs', coming_of_buffer kept akin hs]
    · simp only [holding, buffered, kept, total_cons, List.length_cons] at hh ⊢
      omega

/-- An answer takes its own delivery from what is coming. Either nothing comes behind it, or there is
less to poll. -/
theorem Answers.coming (h : Answers .ends r reads item r' rest) (akin : r.Akin r') :
    r.coming reads = item.delivery ++ r'.coming rest ∧
      (r'.coming rest = [] ∨ r'.toPoll rest < r.toPoll reads) := by
  cases h with
  | message reached found left going fine =>
    obtain ⟨segment, later, hs⟩ := Read.exists_segments rest
    obtain ⟨hpos, hle, _⟩ := Partitioner.extract_found found
    have hh := reached.holding
    refine ⟨?_, .inr (toPoll_lt ?_)⟩
    · rw [reached.coming hs, coming_of_buffer left akin hs]
      exact Partitioner.deliveries_of_found found segment
    · simp only [holding, buffered, left, List.length_drop] at hh ⊢
      omega
  | malformed reached refused kept left =>
    rename_i buf last e
    have hnone := coming_of_malformed akin kept refused rest
    obtain ⟨segment, later, hs⟩ := Read.exists_segments last
    refine ⟨?_, .inl hnone⟩
    rw [reached.coming hs, hnone, Partitioner.deliveries_of_malformed refused]
    rfl
  | pending reached quiet next kept going fine =>
    obtain ⟨hc, hp⟩ := coming_of_nothing reached next (by simp [Read.ended]) rfl akin kept
    exact ⟨hc, .inr hp⟩
  | failed reached quiet next kept =>
    obtain ⟨hc, hp⟩ := coming_of_nothing reached next (by simp [Read.ended]) rfl akin kept
    exact ⟨hc, .inr hp⟩
  | trailing reached waits some next dropped closed =>
    rename_i buf last k
    obtain ⟨segment, later, hs⟩ := Read.exists_segments rest
    have hpos := List.length_pos_iff.mpr some
    have hh := reached.holding
    have hn := next_le next
    refine ⟨?_, .inr (toPoll_lt ?_)⟩
    · rw [coming_of_end reached next, Partitioner.deliveries_of_needMore waits some,
        coming_of_buffer dropped akin hs, hs]
      rfl
    · simp only [holding, buffered, dropped, List.length_nil] at hh ⊢
      omega
  | ended reached next none kept closed fine =>
    rename_i buf last
    have hend := coming_of_end reached next
    rcases none with rfl | ⟨_, e, he⟩
    · obtain ⟨segment, later, hs⟩ := Read.exists_segments rest
      have hc : r'.coming rest =
          r.decoder.partitioner.deliveries r.stream (Read.segments rest) := by
        rw [coming_of_buffer kept akin hs, hs]
        rfl
      refine ⟨by rw [hend, hc, Partitioner.deliveries_nil_cons]; rfl, ?_⟩
      cases last with
      | nil =>
        cases next
        exact .inl (by rw [hc, Read.segments_nil, Partitioner.deliveries_nil_cons]; rfl)
      | cons read last =>
        cases next
        have hh := reached.holding
        refine .inr (toPoll_lt ?_)
        simp only [holding, buffered, kept, List.length_nil, List.length_cons, total_cons] at hh ⊢
        omega
    · have hnone := coming_of_malformed akin kept he rest
      refine ⟨?_, .inl hnone⟩
      rw [hend, hnone, ← List.append_nil buf, Partitioner.deliveries_of_malformed he]
      rfl

theorem poll_coming (sound : r.Sound) (held : Bool) (reads : List Read) :
    ∃ item r' rest, r.poll .ends held reads = (item, r', rest) ∧ r'.Sound ∧ r.Akin r' ∧
      r.coming reads = item.delivery ++ r'.coming rest ∧
      (r'.coming rest = [] ∨ r'.toPoll rest < r.toPoll reads) := by
  cases hf : r.errored with
  | true =>
    refine ⟨.ended, { r with errored := false, readable := false }, reads, by simp [poll, hf], ?_,
      ⟨rfl, rfl⟩, rfl, .inr ?_⟩
    · refine ⟨sound.resumes, ?_, sound.ended, ?_⟩
      · intro _
        exact sound.quiet (.inr hf)
      · intro _
        exact .inl rfl
    · simp [toPoll, hf, holding, buffered]
  | false =>
    obtain ⟨item, r', rest, hadv, hans, hs, hk⟩ :=
      advance_answers sound hf .ends held reads
    refine ⟨item, r', rest, by simp [poll, hf, hadv], hs, hk, ?_⟩
    exact hans.coming hk

/-- The items of polls, one after the other. `held` says for each of them whether messages that were
pulled before are still held. -/
def polls (afterwards : Afterwards) (r : MessageReader) : List Bool → List Read → List Item
  | [], _ => []
  | held :: later, reads =>
    let (item, r', rest) := r.poll afterwards held reads
    item :: r'.polls afterwards later rest

theorem polls_coming (sound : r.Sound) (held : List Bool) (reads : List Read) :
    ∃ (r' : MessageReader) (rest : List Read),
      r.coming reads = (r.polls .ends held reads).filter Item.isDelivery ++ r'.coming rest ∧
      (r'.coming rest = [] ∨ r'.toPoll rest + held.length ≤ r.toPoll reads) := by
  induction held generalizing r reads with
  | nil => exact ⟨r, reads, rfl, .inr (Nat.le_refl _)⟩
  | cons held later ih =>
    obtain ⟨item, r', rest, hp, hs, _, hc, hless⟩ := poll_coming sound held reads
    obtain ⟨last, left, hc', hless'⟩ := ih hs rest
    refine ⟨last, left, ?_, ?_⟩
    · rw [polls, hp, hc, hc', ← List.append_assoc]
      congr 1
      cases hd : item.isDelivery <;> simp [Item.delivery, hd]
    · rcases hless with hnone | hless
      · rw [hnone] at hc'
        exact .inl (List.append_eq_nil_iff.mp hc'.symm).2
      · rcases hless' with hnone | hless'
        · exact .inl hnone
        · refine .inr ?_
          rw [List.length_cons]
          omega

theorem coming_start (p : Partitioner) (stream : String) (reads : List Read) :
    (start p stream).coming reads = p.deliveries stream (Read.segments reads) := by
  obtain ⟨segment, later, hs⟩ := Read.exists_segments reads
  rw [coming, hs]
  rfl

theorem filterMap_delivery (items : List Item) :
    (items.filter Item.isDelivery).filterMap Item.message? = items.filterMap Item.message? := by
  rw [List.filterMap_filter]
  congr 1
  funext item
  cases item with
  | error e => cases e <;> rfl
  | _ => rfl

/-- As many polls as one likes have delivered the beginning of what the segments deliver, and enough of
them all of it. -/
theorem polls_deliver (p : Partitioner) (stream : String) (reads : List Read) :
    (∀ held : List Bool,
      let items := (start p stream).polls .ends held reads
      items.filter Item.isDelivery <+: p.deliveries stream (Read.segments reads) ∧
        items.filterMap Item.message? <+:
          (p.framesOf (Read.segments reads)).map (·.message stream)) ∧
      ∃ enough, ∀ held : List Bool, enough ≤ held.length →
        let items := (start p stream).polls .ends held reads
        items.filter Item.isDelivery = p.deliveries stream (Read.segments reads) ∧
          items.filterMap Item.message? =
            (p.framesOf (Read.segments reads)).map (·.message stream) := by
  have hsound := sound_start p stream
  rw [← Partitioner.deliveries_messages, ← coming_start]
  refine ⟨?_, (start p stream).toPoll reads + 1, ?_⟩
  · intro held items
    obtain ⟨r', rest, hc, _⟩ := polls_coming hsound held reads
    have hbegin : items.filter Item.isDelivery <+: (start p stream).coming reads := ⟨_, hc.symm⟩
    refine ⟨hbegin, ?_⟩
    rw [← filterMap_delivery]
    exact hbegin.filterMap _
  · intro held henough items
    obtain ⟨r', rest, hc, hless⟩ := polls_coming hsound held reads
    have hnone : r'.coming rest = [] := by
      rcases hless with hnone | hless
      · exact hnone
      · omega
    rw [hnone, List.append_nil] at hc
    refine ⟨hc.symm, ?_⟩
    rw [← filterMap_delivery, hc]

end MessageReader

end FrameIntake
