import FrameIntake.Framing.Decoder
import FrameIntake.Message
import FrameIntake.ReadMemory
import FrameIntake.Total

/-!
Messages pulled from a source of reads. A poll answers with at most one item; it reads only when the
buffer holds no complete frame, and one read after the other until there is an item. A read takes no
more than there is room for in the memory, so bytes that arrive together may be read apart. Somebody may
still hold messages that were pulled before, which keeps their memory from being used again.
-/

namespace FrameIntake

/-- What one read brings. A read of no bytes is the end of the stream. -/
inductive Read
  | data (bytes : Bytes)
  | failed (error : IoError)
  /-- Nothing has arrived yet. -/
  | pending
  deriving DecidableEq, Repr

def Read.ended : Read := .data []

def Read.size : Read → Nat
  | .data bytes => bytes.length
  | _ => 0

/-- Joins a read to those that wait. Bytes go to the bytes that they arrive behind. -/
def Read.joinTo : List Read → Read → List Read
  | [.data (b :: bytes)], .data (c :: more) => [.data (b :: bytes ++ c :: more)]
  | [], read => [read]
  | first :: rest, read => first :: joinTo rest read

theorem Read.total_size_joinTo (reads : List Read) (read : Read) :
    total Read.size (joinTo reads read) = total Read.size reads + read.size := by
  fun_induction joinTo reads read with
  | case1 b bytes c more =>
    simp only [total_cons, total_nil, Read.size, List.length_append, List.length_cons]
    omega
  | case2 read => simp
  | case3 read first rest _ ih => simp [ih, Nat.add_assoc]

/-- The part of a read that there is room for, and what is left of it. -/
def Read.cut (room : Nat) : Read → Read × List Read
  | .data bytes =>
    if room < bytes.length then (.data (bytes.take room), [.data (bytes.drop room)])
    else (.data bytes, [])
  | read => (read, [])

theorem Read.size_cut (room : Nat) (read : Read) :
    (read.cut room).1.size + total Read.size (read.cut room).2 = read.size := by
  unfold cut
  split
  · split
    · simp only [size, total_cons, total_nil, List.length_take, List.length_drop]
      omega
    · rfl
  · rfl

theorem Read.length_cut_le (room : Nat) (read : Read) : (read.cut room).2.length ≤ 1 := by
  unfold cut
  repeat' split
  all_goals simp

/-- A cut that takes something leaves less to be read. -/
theorem Read.cut_lt {room : Nat} (h : 0 < room) (read : Read) :
    total Read.size (read.cut room).2 + (read.cut room).2.length < read.size + 1 := by
  unfold cut
  split
  · split
    · simp only [size, total_cons, total_nil, List.length_drop, List.length_cons, List.length_nil]
      omega
    · simp
  · simp

/-- What a source does once its scripted reads are used up. -/
inductive Afterwards
  | ends | waits
  deriving DecidableEq, Repr

def Afterwards.read : Afterwards → Read
  | ends => .ended
  | waits => .pending

inductive Item
  | message (message : Message)
  | error (error : StreamError)
  | pending
  | ended
  deriving DecidableEq, Repr

structure MessageReader where
  stream : String
  decoder : Decoder
  /-- The buffer may hold a frame. -/
  readable : Bool := false
  /-- The last read was the end of the stream. -/
  atEnd : Bool := false
  /-- The last item was an error, so the next poll ends. -/
  errored : Bool := false
  /-- Where the buffer is. -/
  memory : ReadMemory := {}
  /-- Reads that brought something, be it the end or an error. -/
  reads : Nat := 0
  deriving DecidableEq, Repr

namespace MessageReader

def buffered (r : MessageReader) : Nat := r.decoder.buffer.length

/-- The item that the buffer alone gives, if any. -/
def deliver (r : MessageReader) : Option Item × MessageReader :=
  if !r.readable then (none, r)
  else
    match if r.atEnd then r.decoder.decodeEnd else r.decoder.decode with
    | (.frame f, d) =>
      (some (.message ⟨f.data, r.stream⟩),
        { r with decoder := d, memory := r.memory.vacate f.data.length })
    | (.malformed e, d) => (some (.error (.framing e)), { r with decoder := d, errored := true })
    | (.trailing n, d) =>
      (some (.error (.trailing n)),
        { r with decoder := d, errored := true, memory := r.memory.discard n })
    | (.incomplete, d) =>
      (if r.atEnd then some .ended else none, { r with decoder := d, readable := false })

/-- Takes in one read. An item tells that there was nothing to put into the buffer. -/
def accept (r : MessageReader) : Read → Option Item × MessageReader
  | .pending => (some .pending, r)
  | .failed e => (some (.error (.io e)), { r with errored := true, reads := r.reads + 1 })
  | .data [] =>
    if r.atEnd then (some .ended, { r with reads := r.reads + 1 })
    else (none, { r with atEnd := true, readable := true, reads := r.reads + 1 })
  | .data bytes =>
    (none,
      { r with
        decoder := r.decoder.append bytes
        atEnd := false
        readable := true
        memory := r.memory.fill bytes.length
        reads := r.reads + 1 })

/-- Makes room for a read where there is none. -/
def makeRoom (held : Bool) (r : MessageReader) : MessageReader :=
  { r with memory := r.memory.makeRoom r.buffered held }

/-- What the next read takes of `read`, and what is left of it. -/
def take (r : MessageReader) (read : Read) : Read × List Read := read.cut r.memory.room

@[simp] theorem buffered_makeRoom (held : Bool) (r : MessageReader) :
    (r.makeRoom held).buffered = r.buffered := rfl

theorem room_makeRoom (held : Bool) (r : MessageReader) : 0 < (r.makeRoom held).memory.room :=
  r.memory.room_makeRoom r.buffered held

theorem size_take (r : MessageReader) (read : Read) :
    (r.take read).1.size + total Read.size (r.take read).2 = read.size :=
  Read.size_cut _ read

theorem take_lt {r : MessageReader} (room : 0 < r.memory.room) (read : Read) :
    total Read.size (r.take read).2 + (r.take read).2.length < read.size + 1 :=
  Read.cut_lt room read

/-- Delivers, and reads on while there is nothing to deliver. -/
def advance (afterwards : Afterwards) (held : Bool) (r : MessageReader) (reads : List Read) :
    Item × MessageReader × List Read :=
  match reads with
  | [] =>
    match r.deliver with
    | (some item, r) => (item, r, [])
    | (none, r) =>
      match (r.makeRoom held).accept afterwards.read with
      | (some item, r) => (item, r, [])
      | (none, r) => (r.deliver.1.getD .ended, r.deliver.2, [])
  | read :: rest =>
    match r.deliver with
    | (some item, r) => (item, r, read :: rest)
    | (none, r) =>
      match (r.makeRoom held).accept ((r.makeRoom held).take read).1 with
      | (some item, next) => (item, next, ((r.makeRoom held).take read).2 ++ rest)
      | (none, next) => advance afterwards held next (((r.makeRoom held).take read).2 ++ rest)
termination_by total Read.size reads + reads.length
decreasing_by
  have := take_lt (room_makeRoom held r) read
  rw [total_append, List.length_append, total_cons, List.length_cons]
  omega

/-- What the reader and the reads before it hold: their bytes, and one more for each read. -/
def holding (r : MessageReader) (reads : List Read) : Nat :=
  r.buffered + total Read.size reads + reads.length

theorem deliver_buffered_le (r : MessageReader) : r.deliver.2.buffered ≤ r.buffered := by
  unfold deliver buffered
  split
  · exact Nat.le_refl _
  · have h : (if r.atEnd then r.decoder.decodeEnd else r.decoder.decode).2.buffer.length ≤
        r.decoder.buffer.length := by
      split
      · exact Decoder.decodeEnd_length_le _
      · exact Decoder.decode_length_le _
    split <;> simp_all

theorem deliver_message {r r' : MessageReader} {m : Message}
    (h : r.deliver = (some (.message m), r')) : r'.buffered < r.buffered := by
  unfold deliver at h
  split at h
  · simp at h
  · split at h
    · rename_i f d hd
      simp only [Prod.mk.injEq, Option.some.injEq, Item.message.injEq] at h
      obtain ⟨_, rfl⟩ := h
      split at hd
      · exact Decoder.decode_length_lt (Decoder.decodeEnd_frame hd)
      · exact Decoder.decode_length_lt hd
    · simp at h
    · simp at h
    · split at h <;> simp at h

theorem deliver_ne_pending {r r' : MessageReader} : r.deliver ≠ (some .pending, r') := by
  unfold deliver
  repeat' split
  all_goals simp

theorem accept_some {r r' : MessageReader} {read : Read} {item : Item}
    (h : r.accept read = (some item, r')) : r'.buffered = r.buffered ∧ ∀ m, item ≠ .message m := by
  unfold accept at h
  repeat' split at h
  all_goals simp at h
  all_goals obtain ⟨rfl, rfl⟩ := h
  all_goals simp [buffered]

theorem accept_none {r r' : MessageReader} {read : Read}
    (h : r.accept read = (none, r')) : r'.buffered = r.buffered + read.size := by
  unfold accept at h
  repeat' split at h
  all_goals simp at h
  all_goals subst h
  all_goals simp [buffered, Read.size, Decoder.append]

theorem accept_pending {r r' : MessageReader} {read : Read}
    (h : r.accept read = (some .pending, r')) : r' = r := by
  unfold accept at h
  repeat' split at h
  all_goals simp at h
  exact h.symm

/-- A poll uses up what it answers with: a message takes its bytes along, and waiting for more takes at
least a byte or a read, if there was one. Who waits has room. -/
theorem advance_holding {afterwards : Afterwards} {held : Bool} {reads rest : List Read}
    {r r' : MessageReader} {item : Item} (h : r.advance afterwards held reads = (item, r', rest)) :
    r'.holding rest ≤ r.holding reads ∧
      ((∃ m, item = .message m) → r'.holding rest < r.holding reads) ∧
      (item = .pending → 0 < r'.memory.room ∧ (reads ≠ [] → r'.holding rest < r.holding reads)) := by
  induction hn : total Read.size reads + reads.length using Nat.strongRecOn
    generalizing r reads with
  | ind n ih =>
  cases reads with
  | nil =>
    have hd := r.deliver_buffered_le
    unfold advance at h
    split at h
    · rename_i i r₁ hr
      simp only [Prod.mk.injEq] at h
      obtain ⟨rfl, rfl, rfl⟩ := h
      rw [hr] at hd
      refine ⟨by simpa [holding] using hd, ?_, ?_⟩
      · rintro ⟨m, rfl⟩
        simpa [holding] using deliver_message hr
      · rintro rfl
        exact absurd hr deliver_ne_pending
    · rename_i r₁ hr
      rw [hr] at hd
      split at h
      · rename_i i r₂ ha
        simp only [Prod.mk.injEq] at h
        obtain ⟨rfl, rfl, rfl⟩ := h
        obtain ⟨hb, hm⟩ := accept_some ha
        refine ⟨by simp [holding] at *; omega, ?_, ?_⟩
        · rintro ⟨m, rfl⟩
          exact absurd rfl (hm m)
        · rintro rfl
          obtain rfl := accept_pending ha
          exact ⟨room_makeRoom held r₁, by simp⟩
      · rename_i r₂ ha
        have hb := accept_none ha
        have hz : afterwards.read.size = 0 := by cases afterwards <;> rfl
        have hd₂ := r₂.deliver_buffered_le
        simp only [Prod.mk.injEq] at h
        obtain ⟨rfl, rfl, rfl⟩ := h
        refine ⟨by simp [holding] at *; omega, ?_, ?_⟩
        · rintro ⟨m, hm⟩
          have : r₂.deliver = (some (.message m), r₂.deliver.2) := by
            cases ho : r₂.deliver.1 with
            | none => simp [ho] at hm
            | some i => simp [ho] at hm; subst hm; exact Prod.ext ho rfl
          have := deliver_message this
          simp [holding] at *; omega
        · intro hp
          have : r₂.deliver = (some .pending, r₂.deliver.2) := by
            cases ho : r₂.deliver.1 with
            | none => simp [ho] at hp
            | some i => simp [ho] at hp; subst hp; exact Prod.ext ho rfl
          exact absurd this deliver_ne_pending
  | cons read reads =>
    have hd := r.deliver_buffered_le
    unfold advance at h
    split at h
    · rename_i i r₁ hr
      simp only [Prod.mk.injEq] at h
      obtain ⟨rfl, rfl, rfl⟩ := h
      rw [hr] at hd
      refine ⟨by simp [holding]; simp at hd; omega, ?_, ?_⟩
      · rintro ⟨m, rfl⟩
        have := deliver_message hr
        simp [holding]; omega
      · rintro rfl
        exact absurd hr deliver_ne_pending
    · rename_i r₁ hr
      rw [hr] at hd
      have hs := (r₁.makeRoom held).size_take read
      have ht := take_lt (room_makeRoom held r₁) read
      have hr₁ := r₁.buffered_makeRoom held
      have hroom := r₁.room_makeRoom held
      generalize r₁.makeRoom held = r₁' at *
      split at h
      · rename_i i r₂ ha
        simp only [Prod.mk.injEq] at h
        obtain ⟨rfl, rfl, rfl⟩ := h
        obtain ⟨hb, _⟩ := accept_some ha
        have : r₂.holding ((r₁'.take read).2 ++ reads) < r.holding (read :: reads) := by
          simp [holding] at *
          omega
        refine ⟨Nat.le_of_lt this, fun _ => this, ?_⟩
        rintro rfl
        obtain rfl := accept_pending ha
        exact ⟨hroom, fun _ => this⟩
      · rename_i r₂ ha
        have hb := accept_none ha
        have hle : r₂.holding ((r₁'.take read).2 ++ reads) ≤ r.holding (read :: reads) := by
          have hc : (r₁'.take read).2.length ≤ 1 := Read.length_cut_le _ read
          simp [holding] at *
          omega
        have hm : total Read.size ((r₁'.take read).2 ++ reads) +
            ((r₁'.take read).2 ++ reads).length < n := by
          simp at hn ⊢
          omega
        obtain ⟨hl, hmessage, hpending⟩ := ih _ hm h rfl
        refine ⟨Nat.le_trans hl hle, fun m => Nat.lt_of_lt_of_le (hmessage m) hle, fun hp => ?_⟩
        refine ⟨(hpending hp).1, fun _ => ?_⟩
        by_cases he : (r₁'.take read).2 ++ reads = []
        · obtain ⟨ht₀, hr₀⟩ := List.append_eq_nil_iff.mp he
          subst hr₀
          rw [ht₀] at hl hs
          simp [holding] at *
          omega
        · exact Nat.lt_of_lt_of_le ((hpending hp).2 he) hle

/-- One item, with the reads that are left. The poll after an error ends the stream. `held` tells that
somebody holds messages that were pulled before. -/
def poll (afterwards : Afterwards) (held : Bool) (r : MessageReader) (reads : List Read) :
    Item × MessageReader × List Read :=
  if r.errored then (.ended, { r with errored := false, readable := false }, reads)
  else r.advance afterwards held reads

theorem poll_holding {afterwards : Afterwards} {held : Bool} {reads rest : List Read}
    {r r' : MessageReader} {item : Item} (h : r.poll afterwards held reads = (item, r', rest)) :
    r'.holding rest ≤ r.holding reads ∧
      ((∃ m, item = .message m) → r'.holding rest < r.holding reads) ∧
      (item = .pending → 0 < r'.memory.room ∧ (reads ≠ [] → r'.holding rest < r.holding reads)) := by
  unfold poll at h
  split at h
  · simp only [Prod.mk.injEq] at h
    obtain ⟨rfl, rfl, rfl⟩ := h
    simp [holding, buffered]
  · exact advance_holding h

/-- A reader at the start of a stream. -/
def start (partitioner : Partitioner) (stream : String) : MessageReader :=
  { stream, decoder := { partitioner } }

end MessageReader

end FrameIntake
