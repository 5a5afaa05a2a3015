import FrameIntake.MessageReader
import FrameIntake.Proofs.Framing.Resumption

/-!
What a poll can answer. It takes bytes from the reads that wait, part by part, until the buffer holds a
frame or an error, or until a read brings no bytes (`advance_answers`). All that a reader does follows
from this one statement.
-/

namespace FrameIntake

def Frame.message (stream : String) (f : Frame) : Message := ⟨f.data, stream⟩

/-- No frame stands at the front. -/
def Partitioner.Quiet (p : Partitioner) (buf : Bytes) : Prop := ∀ b, p.extract buf 0 ≠ .found b

def Read.bytes : Read → Bytes
  | .data bytes => bytes
  | _ => []

namespace Read

/-- All bytes that the reads bring. -/
def joined (reads : List Read) : Bytes := (reads.map bytes).flatten

@[simp] theorem joined_nil : joined [] = [] := rfl

@[simp] theorem joined_cons (read : Read) (reads : List Read) :
    joined (read :: reads) = read.bytes ++ joined reads := rfl

@[simp] theorem joined_append (reads more : List Read) :
    joined (reads ++ more) = joined reads ++ joined more := by
  simp [joined]

theorem length_bytes (read : Read) : read.bytes.length = read.size := by
  cases read <;> rfl

theorem length_joined (reads : List Read) : (joined reads).length = total size reads := by
  induction reads with
  | nil => rfl
  | cons read reads ih => simp [length_bytes, ih]

/-- States that bytes are taken from the front of the reads, which leaves the rest. A read may be taken
in parts. -/
inductive Supplies : List Read → Bytes → List Read → Prop
  | stop {reads} : Supplies reads [] reads
  | whole {bytes reads taken rest} : bytes ≠ [] → Supplies reads taken rest →
      Supplies (.data bytes :: reads) (bytes ++ taken) rest
  | part {bytes left reads taken rest} : bytes ≠ [] → left ≠ [] →
      Supplies (.data left :: reads) taken rest →
      Supplies (.data (bytes ++ left) :: reads) (bytes ++ taken) rest

theorem Supplies.joined {reads rest : List Read} {taken : Bytes} (h : Supplies reads taken rest) :
    joined reads = taken ++ joined rest := by
  induction h with
  | stop => rfl
  | whole hb hs ih => simp [ih, bytes]
  | part hb hl hs ih =>
    simp only [joined_cons, bytes] at ih ⊢
    simp [ih]

theorem Supplies.length_le {reads rest : List Read} {taken : Bytes} (h : Supplies reads taken rest) :
    rest.length ≤ reads.length := by
  induction h with
  | stop => exact Nat.le_refl _
  | whole hb hs ih => exact Nat.le_succ_of_le ih
  | part hb hl hs ih => exact ih

/-- What there is room for in a read that brings bytes. -/
theorem cut_supplies {room : Nat} (hroom : 0 < room) (b : UInt8) (bs : Bytes) (reads : List Read) :
    ∃ bytes, ((Read.data (b :: bs)).cut room).1 = .data bytes ∧ bytes ≠ [] ∧
      ∀ taken rest, Supplies (((Read.data (b :: bs)).cut room).2 ++ reads) taken rest →
        Supplies (.data (b :: bs) :: reads) (bytes ++ taken) rest := by
  by_cases hl : room < (b :: bs).length
  · have hne : (b :: bs).take room ≠ [] := by
      apply List.ne_nil_of_length_pos
      rw [List.length_take]
      omega
    have hd : (b :: bs).drop room ≠ [] := by
      apply List.ne_nil_of_length_pos
      rw [List.length_drop]
      omega
    refine ⟨(b :: bs).take room, ?_, hne, ?_⟩
    · rw [cut, if_pos hl]
    · intro taken rest hs
      rw [cut, if_pos hl] at hs
      have := Supplies.part hne hd hs
      rwa [List.take_append_drop] at this
  · refine ⟨b :: bs, ?_, by simp, ?_⟩
    · rw [cut, if_neg hl]
    · intro taken rest hs
      rw [cut, if_neg hl] at hs
      exact .whole (by simp) hs

end Read

/-- The next read, and those behind it. -/
def Afterwards.next (afterwards : Afterwards) : List Read → Read × List Read
  | [] => (afterwards.read, [])
  | read :: rest => (read, rest)

namespace MessageReader

variable {afterwards : Afterwards} {held : Bool} {r r' : MessageReader} {reads rest : List Read}

/-- What holds of a reader between two polls. -/
structure Sound (r : MessageReader) : Prop where
  resumes : r.decoder.Resumes
  /-- Before the next read, all frames are delivered. -/
  quiet : r.readable = false ∨ r.errored = true → r.decoder.partitioner.Quiet r.decoder.buffer
  /-- Nothing but an error survives the end of the stream. -/
  ended : r.atEnd = true →
    r.decoder.buffer = [] ∨ ∃ e, r.decoder.partitioner.extract r.decoder.buffer 0 = .malformed e
  idle : r.atEnd = true → r.readable = false ∨ r.errored = true

/-- Before the end of the stream, nothing is to be said of the end. -/
theorem Sound.of_going (going : r.atEnd = false) (resumes : r.decoder.Resumes)
    (quiet : r.readable = false ∨ r.errored = true → r.decoder.partitioner.Quiet r.decoder.buffer) :
    r.Sound := by
  refine ⟨resumes, quiet, ?_, ?_⟩
  · intro h
    cases going.symm.trans h
  · intro h
    cases going.symm.trans h

theorem sound_start (p : Partitioner) (stream : String) : (start p stream).Sound := by
  refine ⟨.of_fresh rfl, ?_, ?_, ?_⟩
  · intro _ b hb
    cases (Partitioner.extract_nil _ 0).symm.trans hb
  · intro _
    exact .inl rfl
  · intro _
    exact .inl rfl

/-- Two readers of one stream, cut in one way. -/
def Akin (r r' : MessageReader) : Prop :=
  r'.stream = r.stream ∧ r'.decoder.partitioner = r.decoder.partitioner

/-- States that the buffer comes to `buf` by reading, which leaves the rest of the reads. -/
def Reaches (r : MessageReader) (reads : List Read) (buf : Bytes) (rest : List Read) : Prop :=
  ∃ taken, Read.Supplies reads taken rest ∧ buf = r.decoder.buffer ++ taken

/-- The item of a poll, the reader after it and the reads that are left. -/
inductive Answers (afterwards : Afterwards) (r : MessageReader) (reads : List Read) :
    Item → MessageReader → List Read → Prop
  | message {buf rest b r'} (reached : r.Reaches reads buf rest)
      (found : r.decoder.partitioner.extract buf 0 = .found b)
      (left : r'.decoder.buffer = buf.drop b.stop)
      (going : r'.atEnd = false) (fine : r'.errored = false) :
      Answers afterwards r reads (.message ((b.frame buf).message r.stream)) r' rest
  | malformed {buf rest rest' e r'} (reached : r.Reaches reads buf rest)
      (refused : r.decoder.partitioner.extract buf 0 = .malformed e)
      (kept : r'.decoder.buffer = buf) (left : rest' = rest ∨ rest = .ended :: rest') :
      Answers afterwards r reads (.error (.framing e)) r' rest'
  | pending {buf rest rest' r'} (reached : r.Reaches reads buf rest)
      (quiet : r.decoder.partitioner.Quiet buf) (next : afterwards.next rest = (.pending, rest'))
      (kept : r'.decoder.buffer = buf) (going : r'.atEnd = true → r.atEnd = true)
      (fine : r'.errored = false) :
      Answers afterwards r reads .pending r' rest'
  | failed {buf rest rest' e r'} (reached : r.Reaches reads buf rest)
      (quiet : r.decoder.partitioner.Quiet buf) (next : afterwards.next rest = (.failed e, rest'))
      (kept : r'.decoder.buffer = buf) :
      Answers afterwards r reads (.error (.io e)) r' rest'
  | trailing {buf rest rest' k r'} (reached : r.Reaches reads buf rest)
      (waits : r.decoder.partitioner.extract buf 0 = .needMore k) (some : buf ≠ [])
      (next : afterwards.next rest = (.ended, rest')) (dropped : r'.decoder.buffer = [])
      (closed : r'.atEnd = true) :
      Answers afterwards r reads (.error (.trailing buf.length)) r' rest'
  | ended {buf rest rest' r'} (reached : r.Reaches reads buf rest)
      (next : afterwards.next rest = (.ended, rest'))
      (none : buf = [] ∨ r.atEnd = true ∧ ∃ e, r.decoder.partitioner.extract buf 0 = .malformed e)
      (kept : r'.decoder.buffer = buf) (closed : r'.atEnd = true) (fine : r'.errored = false) :
      Answers afterwards r reads .ended r' rest'

theorem Reaches.here (r : MessageReader) (reads : List Read) :
    r.Reaches reads r.decoder.buffer reads :=
  ⟨[], .stop, (List.append_nil _).symm⟩

theorem Akin.trans {r'' : MessageReader} (h : r.Akin r') (h' : r'.Akin r'') : r.Akin r'' :=
  ⟨h'.1.trans h.1, h'.2.trans h.2⟩

theorem deliver_of_readable (h : r.decoder.Resumes) (hr : r.readable = true) :
    r.deliver =
      match r.decoder.partitioner.extract r.decoder.buffer 0 with
      | .found b =>
        (some (.message ((b.frame r.decoder.buffer).message r.stream)),
          { r with
            decoder := { r.decoder with buffer := r.decoder.buffer.drop b.stop, scanFrom := 0 }
            memory := r.memory.vacate (b.frame r.decoder.buffer).data.length })
      | .needMore k =>
        if r.atEnd then
          if r.decoder.buffer.isEmpty then
            (some .ended, { r with decoder := { r.decoder with scanFrom := k }, readable := false })
          else
            (some (.error (.trailing r.decoder.buffer.length)),
              { r with
                decoder := { r.decoder with buffer := [], scanFrom := 0 }
                errored := true
                memory := r.memory.discard r.decoder.buffer.length })
        else (none, { r with decoder := { r.decoder with scanFrom := k }, readable := false })
      | .malformed e => (some (.error (.framing e)), { r with errored := true }) := by
  unfold deliver
  simp only [hr, Bool.not_true, Bool.false_eq_true, if_false]
  cases ha : r.atEnd with
  | true =>
    simp only [if_true, h.decodeEnd_eq]
    cases r.decoder.partitioner.extract r.decoder.buffer 0 with
    | found b => rfl
    | malformed e => rfl
    | needMore k =>
      dsimp only
      cases r.decoder.buffer.isEmpty <;> rfl
  | false =>
    simp only [Bool.false_eq_true, if_false, h.decode_eq]
    cases r.decoder.partitioner.extract r.decoder.buffer 0 <;> rfl

/-- A reader that is about to read: `r` once its frames are delivered. -/
structure Poised (r r' : MessageReader) : Prop where
  akin : r.Akin r'
  buffer : r'.decoder.buffer = r.decoder.buffer
  atEnd : r'.atEnd = r.atEnd
  readable : r'.readable = false
  fine : r'.errored = false
  sound : r'.Sound

theorem Poised.makeRoom (h : r.Poised r') (held : Bool) : r.Poised (r'.makeRoom held) :=
  ⟨h.akin, h.buffer, h.atEnd, h.readable, h.fine,
    ⟨h.sound.resumes, h.sound.quiet, h.sound.ended, h.sound.idle⟩⟩

theorem Poised.quiet (h : r.Poised r') : r.decoder.partitioner.Quiet r.decoder.buffer := by
  have := h.sound.quiet (.inl h.readable)
  rwa [h.akin.2, h.buffer] at this

/-- The buffer alone answers, or the reader is about to read. -/
theorem deliver_answers (sound : r.Sound) (fine : r.errored = false) (reads : List Read) :
    (∃ item r', r.deliver = (some item, r') ∧ Answers afterwards r reads item r' reads ∧
      r'.Sound ∧ r.Akin r') ∨
    ∃ r', r.deliver = (none, r') ∧ r.Poised r' := by
  cases hr : r.readable with
  | false => exact .inr ⟨r, by simp [deliver, hr], ⟨rfl, rfl⟩, rfl, rfl, hr, fine, sound⟩
  | true =>
    have hend : r.atEnd = false := by
      cases ha : r.atEnd with
      | false => rfl
      | true =>
        have := sound.idle ha
        simp [hr, fine] at this
    have hd := deliver_of_readable sound.resumes hr
    cases he : r.decoder.partitioner.extract r.decoder.buffer 0 with
    | found b =>
      rw [he] at hd
      refine .inl ⟨_, _, hd, ?_, ?_, rfl, rfl⟩
      · exact .message (.here r reads) he rfl hend fine
      · refine .of_going hend (.of_fresh rfl) ?_
        intro h
        simp [hr, fine] at h
    | malformed e =>
      rw [he] at hd
      refine .inl ⟨_, _, hd, ?_, ?_, rfl, rfl⟩
      · exact .malformed (.here r reads) he rfl (.inl rfl)
      · refine .of_going hend sound.resumes ?_
        intro _ b hb
        cases he.symm.trans hb
    | needMore k =>
      rw [he] at hd
      simp only [hend, Bool.false_eq_true, if_false] at hd
      refine .inr ⟨_, hd, ⟨rfl, rfl⟩, rfl, hend.symm, rfl, fine, ?_⟩
      refine .of_going rfl (.of_needMore he) ?_
      intro _ b hb
      cases he.symm.trans hb

/-- A reader that is about to read comes to the end of the stream. -/
theorem end_answers (h : r.Poised r') (hn : afterwards.next reads = (.ended, rest)) :
    ∃ item last,
      (r'.accept .ended = (some item, last) ∨
        ∃ closed, r'.accept .ended = (none, closed) ∧ closed.deliver = (some item, last)) ∧
      Answers afterwards r reads item last rest ∧ last.Sound ∧ r.Akin last := by
  cases ha : r'.atEnd with
  | true =>
    refine ⟨.ended, { r' with reads := r'.reads + 1 }, .inl (by simp [accept, Read.ended, ha]), ?_, ?_,
      h.akin⟩
    · refine .ended (.here r reads) hn ?_ h.buffer ha h.fine
      rcases h.sound.ended ha with hb | ⟨e, he⟩
      · exact .inl (h.buffer ▸ hb)
      · rw [h.akin.2, h.buffer] at he
        exact .inr ⟨h.atEnd ▸ ha, e, he⟩
    · exact ⟨h.sound.resumes, h.sound.quiet, h.sound.ended, h.sound.idle⟩
  | false =>
    have hacc : r'.accept .ended =
        (none, { r' with atEnd := true, readable := true, reads := r'.reads + 1 }) := by
      simp [accept, Read.ended, ha]
    have hd := deliver_of_readable
      (r := { r' with atEnd := true, readable := true, reads := r'.reads + 1 }) h.sound.resumes rfl
    dsimp only at hd
    have hx : r.decoder.partitioner.extract r.decoder.buffer 0 =
        r'.decoder.partitioner.extract r'.decoder.buffer 0 := by
      rw [h.akin.2, h.buffer]
    cases he : r'.decoder.partitioner.extract r'.decoder.buffer 0 with
    | found b => exact absurd (hx.trans he) (h.quiet b)
    | malformed e =>
      rw [he] at hd
      refine ⟨_, _, .inr ⟨_, hacc, hd⟩, ?_, ?_, h.akin⟩
      · refine .malformed (.here r reads) (hx.trans he) h.buffer ?_
        cases reads with
        | nil => exact .inl (Prod.mk.inj hn).2.symm
        | cons read reads =>
          cases hn
          exact .inr rfl
      · refine ⟨h.sound.resumes, ?_, ?_, ?_⟩
        · intro _
          exact h.sound.quiet (.inl h.readable)
        · intro _
          exact .inr ⟨e, he⟩
        · intro _
          exact .inr rfl
    | needMore k =>
      rw [he] at hd
      simp only [if_true] at hd
      cases hb : r'.decoder.buffer.isEmpty with
      | true =>
        rw [hb] at hd
        have hnil : r'.decoder.buffer = [] := List.isEmpty_iff.mp hb
        refine ⟨_, _, .inr ⟨_, hacc, hd⟩, ?_, ?_, h.akin⟩
        · exact .ended (.here r reads) hn (.inl (h.buffer ▸ hnil)) h.buffer rfl h.fine
        · refine ⟨.of_needMore he, ?_, ?_, ?_⟩
          · intro _
            exact h.sound.quiet (.inl h.readable)
          · intro _
            exact .inl hnil
          · intro _
            exact .inl rfl
      | false =>
        rw [hb] at hd
        rw [h.buffer] at hd
        refine ⟨_, _, .inr ⟨_, hacc, hd⟩, ?_, ?_, h.akin⟩
        · refine .trailing (.here r reads) (hx.trans he) ?_ hn rfl rfl
          intro hnil
          rw [h.buffer, hnil] at hb
          contradiction
        · refine ⟨.of_fresh rfl, ?_, ?_, ?_⟩
          · intro _ b hx
            cases (Partitioner.extract_nil _ 0).symm.trans hx
          · intro _
            exact .inl rfl
          · intro _
            exact .inr rfl

theorem advance_of_deliver {item : Item} (h : r.deliver = (some item, r')) (reads : List Read) :
    r.advance afterwards held reads = (item, r', reads) := by
  cases reads <;> rw [advance, h]

/-- A read that is taken as a whole answers by itself, or lets the buffer answer. -/
theorem advance_of_accept {item : Item} {poised : MessageReader} {read : Read}
    (hd : r.deliver = (none, poised)) (hn : afterwards.next reads = (read, rest))
    (hw : (poised.makeRoom held).take read = (read, []))
    (ha : (poised.makeRoom held).accept read = (some item, r') ∨
      ∃ next, (poised.makeRoom held).accept read = (none, next) ∧ next.deliver = (some item, r')) :
    r.advance afterwards held reads = (item, r', rest) := by
  cases reads with
  | nil =>
    cases hn
    rw [advance, hd]
    rcases ha with ha | ⟨next, ha, hi⟩
    · simp [ha]
    · simp [ha, hi]
  | cons first reads =>
    cases hn
    rw [advance, hd]
    rcases ha with ha | ⟨next, ha, hi⟩
    · simp [hw, ha]
    · simp [hw, ha, advance_of_deliver hi]

theorem advance_of_data {poised next : MessageReader} {read : Read}
    (hd : r.deliver = (none, poised))
    (ha : (poised.makeRoom held).accept ((poised.makeRoom held).take read).1 = (none, next)) :
    r.advance afterwards held (read :: rest) =
      next.advance afterwards held (((poised.makeRoom held).take read).2 ++ rest) := by
  rw [advance, hd]
  simp [ha]

/-- What a reader answers that has taken bytes already is an answer to the reads that held them. -/
theorem Answers.behind {next : MessageReader} {more : List Read} {item : Item} (akin : r.Akin next)
    (going : next.atEnd = false)
    (reach : ∀ buf rest, next.Reaches more buf rest → r.Reaches reads buf rest)
    (h : Answers afterwards next more item r' rest) : Answers afterwards r reads item r' rest := by
  obtain ⟨hs, hp⟩ := akin
  cases h with
  | message reached found left hgoing fine =>
    rw [hs]
    rw [hp] at found
    exact .message (reach _ _ reached) found left hgoing fine
  | malformed reached refused kept left =>
    rw [hp] at refused
    exact .malformed (reach _ _ reached) refused kept left
  | pending reached quiet hnext kept hgoing fine =>
    rw [hp] at quiet
    refine .pending (reach _ _ reached) quiet hnext kept ?_ fine
    intro h
    cases going.symm.trans (hgoing h)
  | failed reached quiet hnext kept =>
    rw [hp] at quiet
    exact .failed (reach _ _ reached) quiet hnext kept
  | trailing reached waits some hnext dropped closed =>
    rw [hp] at waits
    exact .trailing (reach _ _ reached) waits some hnext dropped closed
  | ended reached hnext none kept closed fine =>
    refine .ended (reach _ _ reached) hnext ?_ kept closed fine
    rcases none with hn | ⟨ha, _⟩
    · exact .inl hn
    · cases going.symm.trans ha

/-- A reader that is about to read takes what there is room for. -/
theorem accept_data (h : r.Poised r') (room : 0 < r'.memory.room) (b : UInt8) (bs : Bytes)
    (reads : List Read) :
    ∃ next, r'.accept (r'.take (.data (b :: bs))).1 = (none, next) ∧ next.Sound ∧
      next.errored = false ∧ next.atEnd = false ∧ r.Akin next ∧
      ∀ buf rest, next.Reaches ((r'.take (.data (b :: bs))).2 ++ reads) buf rest →
        r.Reaches (.data (b :: bs) :: reads) buf rest := by
  obtain ⟨bytes, hcut, hne, hs⟩ := Read.cut_supplies room b bs reads
  obtain ⟨c, cs, rfl⟩ := List.exists_cons_of_ne_nil hne
  have hacc : r'.accept (.data (c :: cs)) =
      (none,
        { r' with
          decoder := r'.decoder.append (c :: cs)
          atEnd := false
          readable := true
          memory := r'.memory.fill (c :: cs).length
          reads := r'.reads + 1 }) := rfl
  rw [take, hcut]
  refine ⟨_, hacc, .of_going rfl (h.sound.resumes.append _) ?_, h.fine, rfl, h.akin, ?_⟩
  · rintro (hr | he)
    · contradiction
    · cases h.fine.symm.trans he
  · rintro buf rest ⟨taken, hsup, hbuf⟩
    refine ⟨_, hs taken rest hsup, ?_⟩
    rw [hbuf, ← List.append_assoc, ← h.buffer]
    rfl

theorem advance_answers (sound : r.Sound) (fine : r.errored = false) (afterwards : Afterwards)
    (held : Bool) (reads : List Read) :
    ∃ item r' rest, r.advance afterwards held reads = (item, r', rest) ∧
      Answers afterwards r reads item r' rest ∧ r'.Sound ∧ r.Akin r' := by
  induction hm : total Read.size reads + reads.length using Nat.strongRecOn generalizing r reads with
  | ind n ih =>
  rcases deliver_answers sound fine reads with ⟨item, r', hd, ha, hs, hk⟩ | ⟨poised, hd, hp⟩
  · exact ⟨item, r', reads, advance_of_deliver hd reads, ha, hs, hk⟩
  have hroom := hp.makeRoom held
  cases hn : afterwards.next reads with
  | mk read rest =>
  cases read with
  | pending =>
    refine ⟨.pending, poised.makeRoom held, rest, advance_of_accept hd hn rfl (.inl rfl), ?_,
      hroom.sound, hroom.akin⟩
    refine .pending (.here r reads) hp.quiet hn hroom.buffer ?_ hroom.fine
    intro h
    exact hroom.atEnd ▸ h
  | failed e =>
    refine ⟨.error (.io e), _, rest, advance_of_accept hd hn rfl (.inl rfl), ?_, ?_, hroom.akin⟩
    · exact .failed (.here r reads) hp.quiet hn hroom.buffer
    · refine ⟨hroom.sound.resumes, ?_, hroom.sound.ended, ?_⟩
      · intro _
        exact hroom.sound.quiet (.inl hroom.readable)
      · intro _
        exact .inr rfl
  | data bytes =>
    cases bytes with
    | nil =>
      obtain ⟨item, r', ha, hans, hs, hk⟩ := end_answers hroom hn
      exact ⟨item, r', rest, advance_of_accept hd hn (by simp [take, Read.cut]) ha, hans, hs, hk⟩
    | cons b bs =>
      cases reads with
      | nil => cases afterwards <;> simp [Afterwards.next, Afterwards.read, Read.ended] at hn
      | cons read reads =>
        obtain ⟨rfl, rfl⟩ := Prod.mk.inj hn
        obtain ⟨next, hacc, hs, hf, hgo, hk, hreach⟩ :=
          accept_data hroom (room_makeRoom held poised) b bs reads
        have hlt := take_lt (room_makeRoom held poised) (.data (b :: bs))
        have hsmaller : total Read.size (((poised.makeRoom held).take (.data (b :: bs))).2 ++ reads) +
            (((poised.makeRoom held).take (.data (b :: bs))).2 ++ reads).length < n := by
          simp only [total_append, List.length_append, total_cons, List.length_cons] at hm ⊢
          omega
        obtain ⟨item, r', rest, hadv, hans, hs', hk'⟩ := ih _ hsmaller hs hf _ rfl
        refine ⟨item, r', rest, ?_, hans.behind hk hgo hreach, hs', hk.trans hk'⟩
        rw [advance_of_data hd hacc, hadv]

end MessageReader

end FrameIntake
