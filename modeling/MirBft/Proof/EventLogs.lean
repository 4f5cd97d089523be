/-
**Reading a recorded event log.**

* `log_round_trips`: what was written is read back, event by event, and then `io.EOF`; of a log that
  was cut the complete events are read, and then an error, which is `io.EOF` at the end of a record,
  and inside a length if the library reports that as `io.EOF`.
* `readEvent_returns_iff`: reading an event panics exactly if the stream starts with a length that
  is negative or too large for the buffer.
-/

import MirBft.Model.EventLog

namespace MirBft.EventLog

open List

variable {E : Type} {lib : Libraries E} {event : E} {events : List E} {rest : Bytes}

/-- The events that calls of `ReadEvent` return one after the other. -/
inductive Reads (lib : Libraries E) : Reader → List E → Reader → Prop
  | done {r : Reader} : Reads lib r [] r
  | more {r next final : Reader} {event : E} {events : List E}
      (read : r.readEvent lib = .ok (.ok event, next)) (others : Reads lib next events final) :
      Reads lib r (event :: events) final

theorem written_cons : written lib (event :: events) =
    sizePrefix lib event ++ (lib.marshal event ++ written lib events) := by
  simp [written, writeSizePrefixedProto]

/-! ### One record -/

theorem readEvent_nil {buffer : Bytes} :
    (Reader.mk [] buffer).readEvent lib = .ok (.error .eof, ⟨[], buffer⟩) := rfl

theorem isUvarint_sizePrefix (lib : Libraries E) (event : E) : IsUvarint 10 (sizePrefix lib event) ∧
    zigzag (uvarintValue (sizePrefix lib event)) = (lib.marshal event).length :=
  isUvarint_putVarint ((lib.marshal_le event).trans_lt lib.maxGrow_lt)

theorem read_sizePrefix : readVarint lib.cut (sizePrefix lib event ++ rest) =
    (.ok ((lib.marshal event).length : Int), rest) :=
  readVarint_eq_ok.mpr ⟨_, rfl, (isUvarint_sizePrefix lib event).1, (isUvarint_sizePrefix lib event).2.symm⟩

theorem grow_length : grow lib (lib.marshal event).length = .ok () := by
  have fits := lib.marshal_le event
  rw [grow, if_neg (by omega), if_neg (by omega)]
  rfl

theorem readEvent_record : (Reader.mk (sizePrefix lib event ++ (lib.marshal event ++ rest))
    []).readEvent lib = .ok (.ok event, ⟨rest, []⟩) := by
  simp [Reader.readEvent, readSizePrefixedProto, read_sizePrefix, grow_length,
    lib.unmarshal_marshal, Bind.bind, Except.bind, Pure.pure, Except.pure]

/-- A record that stops early is an error other than `io.EOF`. -/
theorem readEvent_stops (short : rest.length < (lib.marshal event).length) : ∃ err after,
    (Reader.mk (sizePrefix lib event ++ rest) []).readEvent lib = .ok (.error err, after) ∧ err ≠ .eof := by
  refine ⟨.withMessage (.withMessage .eof "could not read message") "error reading event", ⟨[], rest⟩,
    ?_, by decide⟩
  simp [Reader.readEvent, readSizePrefixedProto, read_sizePrefix, grow_length, short,
    take_of_length_le short.le,
    drop_of_length_le short.le, Bind.bind, Except.bind, Pure.pure, Except.pure, ReadError.eof]

/-- A stream that ends inside a length is reported as the library reports it. -/
theorem readEvent_cut {piece more : Bytes} (isPrefix : sizePrefix lib event = piece ++ more)
    (started : piece ≠ []) (unfinished : more ≠ []) : ∃ err after,
      (Reader.mk piece []).readEvent lib = .ok (.error err, after) ∧ (err = .eof ↔ lib.cut = .eof) := by
  have isNumber := (isUvarint_sizePrefix lib event).1
  rw [isPrefix] at isNumber
  rw [Reader.readEvent, readSizePrefixedProto, readVarint_cut isNumber started unfinished]
  by_cases isEof : lib.cut = .eof
  · exact ⟨.eof, ⟨[], []⟩, by simp [isEof, Bind.bind, Except.bind, Pure.pure, Except.pure], by simp [isEof]⟩
  · exact ⟨.withMessage (.withMessage (.stream lib.cut) "could not read size prefix")
      "error reading event", ⟨[], []⟩, by simp [isEof, Bind.bind, Except.bind, ReadError.eof, Pure.pure,
        Except.pure], by simp [isEof, ReadError.eof]⟩

/-! ### The log -/

/-- A part of the log that is all of its first `n` records and a piece of the length of the next. -/
def InsideLength (lib : Libraries E) (events : List E) (n : Nat) (stream : Bytes) : Prop :=
  ∃ event piece more, events[n]? = some event ∧ sizePrefix lib event = piece ++ more ∧ piece ≠ [] ∧
    more ≠ [] ∧ stream = written lib (events.take n) ++ piece

/-- **Event logs round-trip**: all events are read back and then `io.EOF`. Of a log cut at any place
the complete events are read and then an error; it is `io.EOF` at the end of a record, and inside a
length if the library reports that as `io.EOF`. -/
theorem log_round_trips (lib : Libraries E) (events : List E) :
    (∃ final, Reads lib ⟨written lib events, []⟩ events final ∧
      final.readEvent lib = .ok (.error .eof, final)) ∧
    ∀ k, ∃ n final err after, Reads lib ⟨(written lib events).take k, []⟩ (events.take n) final ∧
      final.readEvent lib = .ok (.error err, after) ∧
      (err = .eof ↔ (written lib events).take k = written lib (events.take n) ∨
        lib.cut = .eof ∧ InsideLength lib events n ((written lib events).take k)) := by
  induction events with
  | nil =>
    refine ⟨⟨⟨[], []⟩, .done, readEvent_nil⟩, fun k => ⟨0, ⟨[], []⟩, .eof, ⟨[], []⟩, ?_, readEvent_nil, ?_⟩⟩
    · rw [written, flatMap_nil, take_nil]
      exact .done
    · simp [written]
  | cons event events ih =>
    obtain ⟨⟨final, reads, ends⟩, cuts⟩ := ih
    refine ⟨⟨final, .more (written_cons ▸ readEvent_record) reads, ends⟩, fun k => ?_⟩
    by_cases complete : (sizePrefix lib event).length + (lib.marshal event).length ≤ k
    · -- The record is complete: the cut is one of the other records.
      obtain ⟨n, final, err, after, reads, fails, isEof⟩ :=
        cuts (k - (sizePrefix lib event).length - (lib.marshal event).length)
      have isCut : (written lib (event :: events)).take k = sizePrefix lib event ++ (lib.marshal event ++
          (written lib events).take (k - (sizePrefix lib event).length - (lib.marshal event).length)) := by
        rw [written_cons, take_append, take_append, take_of_length_le (by omega),
          take_of_length_le (i := k - _) (by omega)]
      refine ⟨n + 1, final, err, after, isCut ▸ .more readEvent_record reads, fails, ?_⟩
      rw [isEof, isCut, take_succ_cons, written_cons]
      simp [InsideLength, written_cons]
    · refine ⟨0, ⟨(written lib (event :: events)).take k, []⟩, ?_⟩
      rw [written_cons]
      rcases Nat.eq_zero_or_pos k with rfl | started
      · exact ⟨.eof, ⟨[], []⟩, .done, readEvent_nil, by simp [written]⟩
      have notEmpty : (sizePrefix lib event ++ (lib.marshal event ++ written lib events)).take k ≠ [] := by
        intro isEmpty
        have := congrArg List.length isEmpty
        simp only [length_take, length_append, length_nil] at this
        omega
      by_cases inLength : k < (sizePrefix lib event).length
      · -- Inside the length of the record.
        have isPiece : (sizePrefix lib event ++ (lib.marshal event ++ written lib events)).take k =
          (sizePrefix lib event).take k := take_append_of_le_length inLength.le
        have isPrefix := (take_append_drop k (sizePrefix lib event)).symm
        have unfinished : (sizePrefix lib event).drop k ≠ [] := by simp [inLength]
        rw [isPiece] at notEmpty ⊢
        obtain ⟨err, after, fails, isEof⟩ := readEvent_cut isPrefix notEmpty unfinished
        refine ⟨err, after, .done, fails, isEof.trans ⟨fun isCut => .inr ⟨isCut, ?_⟩, ?_⟩⟩
        · exact ⟨event, _, _, rfl, isPrefix, notEmpty, unfinished, rfl⟩
        · rintro (isEmpty | ⟨isCut, _⟩)
          exacts [absurd isEmpty notEmpty, isCut]
      · -- Past the length, inside the event.
        have isRest : (sizePrefix lib event ++ (lib.marshal event ++ written lib events)).take k =
            sizePrefix lib event ++ (lib.marshal event).take (k - (sizePrefix lib event).length) := by
          rw [take_append, take_of_length_le (by omega), take_append_of_le_length (by omega)]
        rw [isRest] at notEmpty ⊢
        obtain ⟨err, after, fails, notEof⟩ := @readEvent_stops E lib event
          ((lib.marshal event).take (k - (sizePrefix lib event).length)) (by rw [length_take]; omega)
        refine ⟨err, after, .done, fails, iff_of_false notEof ?_⟩
        rintro (isEmpty | ⟨_, other, piece, more, isOther, isPrefix, _, unfinished, isPiece⟩)
        · exact notEmpty isEmpty
        · cases isOther
          have left := length_pos_iff.mpr unfinished
          have lengths := congrArg List.length isPrefix
          have longer := congrArg List.length isPiece
          simp only [written, take_zero, flatMap_nil, nil_append, length_append] at lengths longer
          omega

/-- A record with a length of two bytes. -/
def oneRecord : Libraries Unit where
  marshal _ := List.replicate 64 0
  unmarshal bytes := if bytes = List.replicate 64 0 then some () else none
  maxGrow := 64
  cut := .eof
  unmarshal_marshal _ := rfl
  marshal_le _ := by decide
  maxGrow_lt := by decide

/-- Cut after the first byte of a record, the log ends with `io.EOF` as if it were complete. -/
theorem truncated_log_reads_as_complete :
    (Reader.mk ((written oneRecord [()]).take 1) []).readEvent oneRecord = .ok (.error .eof, ⟨[], []⟩) ∧
      ∀ n, (written oneRecord [()]).take 1 ≠ written oneRecord ([()].take n) := by
  refine ⟨by decide, fun n => ?_⟩
  rcases n with _ | n
  · decide
  · rw [take_succ_cons, take_nil]
    decide

/-! ### Corrupt logs -/

/-- **Reading an event never panics** if the stream starts with no length that is negative or larger
than the buffer grows, and only then. -/
theorem readEvent_returns_iff (lib : Libraries E) (r : Reader) :
    (∃ result, r.readEvent lib = .ok result) ↔
      ∀ bytes rest, r.source = bytes ++ rest → IsUvarint 10 bytes →
        2 ∣ uvarintValue bytes ∧ uvarintValue bytes ≤ 2 * lib.maxGrow := by
  have grows_iff : (∃ result, r.readEvent lib = .ok result) ↔
      ∀ l rest, readVarint lib.cut r.source = (.ok l, rest) → 0 ≤ l ∧ l ≤ lib.maxGrow := by
    rw [Reader.readEvent, readSizePrefixedProto]
    rcases readVarint lib.cut r.source with ⟨err | l, rest⟩
    · refine iff_of_true ?_ (by simp)
      by_cases isEof : err = .eof <;> simp [isEof, Bind.bind, Except.bind, Pure.pure, Except.pure,
        ReadError.eof]
    · by_cases grows : 0 ≤ l ∧ l ≤ lib.maxGrow
      · refine iff_of_true ?_ (by rintro _ _ ⟨⟩; exact grows)
        simp only [grow, if_neg (Int.not_lt.mpr grows.1), if_neg (Int.not_lt.mpr grows.2), pure_bind]
        split_ifs
        · exact ⟨_, rfl⟩
        · cases lib.unmarshal (r.buffer ++ rest.take l.toNat) <;> exact ⟨_, rfl⟩
      · refine iff_of_false ?_ fun all => grows (all l rest rfl)
        have fails : ∃ failure, grow lib l = .error failure := by
          rw [grow]
          split_ifs
          exacts [⟨_, rfl⟩, ⟨_, rfl⟩, absurd ⟨by omega, by omega⟩ grows]
        obtain ⟨failure, fails⟩ := fails
        simp [fails, Bind.bind, Except.bind]
  rw [grows_iff]
  constructor
  · intro grows bytes rest isSource isNumber
    have := grows _ _ (readVarint_eq_ok.mpr ⟨bytes, isSource, isNumber, rfl⟩)
    unfold zigzag at this
    split at this <;> omega
  · intro even l rest read
    obtain ⟨bytes, isSource, isNumber, rfl⟩ := readVarint_eq_ok.mp read
    have := even bytes rest isSource isNumber
    unfold zigzag
    split <;> omega

theorem negative_length_panics :
    (Reader.mk [0x01] []).readEvent oneRecord = .error "bytes.Buffer.Grow: negative count" := rfl

end MirBft.EventLog
