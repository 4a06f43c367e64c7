import Hosted.Log.Buffer
import Hosted.Proofs.Json.OneLine
import Hosted.Proofs.Log.Emitter
import Hosted.Proofs.Log.RoundTrip
import Hosted.Proofs.Text.Lines
import Hosted.Proofs.Text.Utf8

/-!
# Buffers read back

An entry is written on one line, and no part of what is decoded reaches across a line feed.
So a buffer reads back part by part, if what is written past the emitter ends its last line.
-/

namespace Hosted.Log

open Json

variable {runId : String} {n : Nat} {b : Buffer} {p : Part} {ps : List Part} {e : Entry}

/-! ## The line of an entry -/

theorem newline_not_mem_line (e : Entry) : '\n' ∉ e.line := newline_not_mem_render _

theorem getLast?_renderFields (fields : List (String × Value)) :
    (renderFields fields).getLast? = some '\x7d' := by
  induction fields with
  | nil => rfl
  | cons f fields ih => simp [renderFields, List.getLast?_cons, List.getLast?_append, ih]

theorem getLast?_line (e : Entry) : e.line.getLast? = some '\x7d' := by
  obtain ⟨name, v, fields, hfields⟩ : ∃ name v fields, e.fields = (name, v) :: fields :=
    ⟨_, _, _, rfl⟩
  rw [Entry.line, hfields]
  simp [Value.render, List.getLast?_cons, List.getLast?_append, getLast?_renderFields]

/-- An entry occupies one line, whatever its texts hold. -/
theorem lines_line (e : Entry) : lines (e.line ++ ['\n']) = [e.line] := by
  refine lines_append_of_not_mem (newline_not_mem_line e) ?_
  rw [getLast?_line]
  decide

/-! ## Parts -/

/-- What an entry is read back as: details that are `null` are absent. -/
def Entry.readBack (e : Entry) : Entry :=
  { e with details := e.details.bind Value.present? }

namespace Part

/-- Entries whose details can be read, and bytes that end their last line. -/
def Whole : Part → Prop
  | .entry e => e.Plain
  | .raw bytes => bytes = [] ∨ bytes.getLast? = some 0x0A

/-- The bytes that a part adds to the output, if its entry has an identifier. -/
def bytes : Part → List UInt8
  | .entry e => e.bytes
  | .raw bytes => bytes

/-- The line of an entry, or the lines of a buffer with just these bytes. -/
def lines (runId : String) : Part → List (List Char)
  | .entry e => [e.line]
  | .raw bytes => (Buffer.ofParts runId [.raw bytes]).lines

/-- The entry itself, or the entries of a buffer with just these bytes. -/
def entries (runId : String) : Part → List Entry
  | .entry e => [e.readBack]
  | .raw bytes => (Buffer.ofParts runId [.raw bytes]).entries

/-- Gives each entry that has none an identifier. The first one is numbered `n + 1`. -/
def labelFrom (runId : String) : Nat → List Part → List Part
  | _, [] => []
  | n, .raw bytes :: ps => .raw bytes :: labelFrom runId n ps
  | n, .entry e :: ps =>
    if e.traceId = "" then
      .entry { e with traceId := Emitter.traceId runId e.component (n + 1) } ::
        labelFrom runId (n + 1) ps
    else .entry e :: labelFrom runId n ps

theorem labelFrom_cons_of_label {emitter : Emitter} (hrun : emitter.runId = runId)
    (hassigned : emitter.assigned = n) (e : Entry) (ps : List Part) :
    labelFrom runId n (.entry e :: ps) =
      .entry (emitter.label e).2 :: labelFrom runId (emitter.label e).1.assigned ps := by
  subst hrun hassigned
  rw [labelFrom, Emitter.label]
  split_ifs <;> rfl

theorem whole_labelFrom (runId : String) (n : Nat) (h : ∀ p ∈ ps, p.Whole) :
    ∀ p ∈ labelFrom runId n ps, p.Whole := by
  induction ps generalizing n with
  | nil => exact h
  | cons p ps ih =>
      obtain ⟨hp, hps⟩ := List.forall_mem_cons.1 h
      cases p with
      | raw bytes => exact List.forall_mem_cons.2 ⟨hp, ih n hps⟩
      | entry e =>
          unfold labelFrom
          split_ifs
          · exact List.forall_mem_cons.2 ⟨hp, ih (n + 1) hps⟩
          · exact List.forall_mem_cons.2 ⟨hp, ih n hps⟩

/-- What comes after a part is decoded and cut into lines on its own. -/
theorem Whole.lines_append (h : p.Whole) (more : List UInt8) :
    Hosted.lines (Utf8.decodeLossy (p.bytes ++ more)) =
      Hosted.lines (Utf8.decodeLossy p.bytes) ++ Hosted.lines (Utf8.decodeLossy more) := by
  cases p with
  | entry e =>
      rw [bytes, Entry.bytes, Utf8.decodeLossy_encode_append, Utf8.decodeLossy_encode,
        List.append_assoc, List.singleton_append, lines_append_newline]
  | raw bytes =>
      rcases h with rfl | hlast
      · rfl
      · obtain ⟨front, rfl⟩ := List.getLast?_eq_some_iff.1 hlast
        have hnewline : ∀ more, Utf8.decodeLossy (front ++ 0x0A :: more) =
            Utf8.decodeLossy front ++ '\n' :: Utf8.decodeLossy more := by
          intro more
          have hfirst := Utf8.decodeLossy_encode_append ['\n'] more
          rw [Utf8.decodeLossy_append_ascii (by decide)]
          exact congrArg (Utf8.decodeLossy front ++ ·) hfirst
        rw [Part.bytes, List.append_assoc, List.singleton_append, hnewline, hnewline,
          lines_append_newline]
        rfl

end Part

namespace Buffer

/-- The emitter and its output have written `n` identifiers of a run. -/
structure Assigned (runId : String) (n : Nat) (b : Buffer) : Prop where
  emitter : b.emitter = { output := 0, runId, assigned := n }
  room : b.output.room = none

theorem assigned_empty (runId : String) : (empty runId).Assigned runId 0 := ⟨rfl, rfl⟩

theorem write_entry (hb : b.Assigned runId n) (e : Entry) :
    b.write (.entry e) =
      ⟨(b.emitter.label e).1, (b.output.write (Part.entry (b.emitter.label e).2).bytes).1⟩ := by
  have hout : (b.emitter.label e).1.output = 0 := by rw [Emitter.output_label, hb.emitter]
  simp [write, Emitter.emit, hout, Part.bytes, Entry.bytes]

/-- The bytes of the output are those of the parts, in order. -/
theorem bytes_foldl_write (hb : b.Assigned runId n) (ps : List Part) :
    (ps.foldl write b).output.bytes =
      b.output.bytes ++ (Part.labelFrom runId n ps).flatMap Part.bytes := by
  induction ps generalizing b n with
  | nil => simp [Part.labelFrom]
  | cons p ps ih =>
      cases p with
      | raw bytes =>
          have hb' : (b.write (.raw bytes)).Assigned runId n :=
            ⟨hb.emitter, Output.room_write hb.room bytes⟩
          rw [List.foldl_cons, ih hb', Part.labelFrom, List.flatMap_cons, ← List.append_assoc]
          exact congrArg (· ++ _) (Output.bytes_write hb.room bytes)
      | entry e =>
          have hb' : (b.write (.entry e)).Assigned runId (b.emitter.label e).1.assigned := by
            rw [write_entry hb]
            refine ⟨?_, Output.room_write hb.room _⟩
            rw [hb.emitter, Emitter.label]
            split_ifs <;> rfl
          have hlabel := Part.labelFrom_cons_of_label (congrArg Emitter.runId hb.emitter)
            (congrArg Emitter.assigned hb.emitter) e ps
          rw [List.foldl_cons, ih hb', hlabel, List.flatMap_cons, ← List.append_assoc,
            write_entry hb, Output.bytes_write hb.room]

theorem bytes_ofParts (runId : String) (ps : List Part) :
    (ofParts runId ps).bytes = (Part.labelFrom runId 0 ps).flatMap Part.bytes := by
  rw [ofParts, bytes_foldl_write (assigned_empty runId)]
  rfl

theorem lines_ofParts_raw (runId : String) (bytes : List UInt8) :
    (ofParts runId [.raw bytes]).lines = Hosted.lines (Utf8.decodeLossy bytes) := by
  rw [Output.lines, Output.text, bytes_ofParts]
  simp [Part.labelFrom, Part.bytes]

theorem lines_bytes (runId : String) (p : Part) :
    Hosted.lines (Utf8.decodeLossy p.bytes) = p.lines runId := by
  cases p with
  | raw bytes => exact (lines_ofParts_raw runId bytes).symm
  | entry e =>
      rw [Part.bytes, Entry.bytes, Utf8.decodeLossy_encode]
      exact lines_line e

/-- The lines of a buffer are those of its parts, in order. -/
theorem lines_ofParts (h : ∀ p ∈ ps, p.Whole) :
    (ofParts runId ps).lines = (Part.labelFrom runId 0 ps).flatMap (Part.lines runId) := by
  rw [Output.lines, Output.text, bytes_ofParts]
  have hwhole := Part.whole_labelFrom runId 0 h
  generalize Part.labelFrom runId 0 ps = labelled at hwhole
  induction labelled with
  | nil => rfl
  | cons p labelled ih =>
      obtain ⟨hp, hrest⟩ := List.forall_mem_cons.1 hwhole
      rw [List.flatMap_cons, hp.lines_append, ih hrest, lines_bytes runId, List.flatMap_cons]

/-- The entries of the lines of a part. -/
theorem entries_lines (h : p.Whole) :
    (p.lines runId).filterMap (fun line => (Entry.ofLine line).toOption) = p.entries runId := by
  cases p with
  | raw bytes => rfl
  | entry e =>
      have hread : Entry.ofLine e.line = .ok e.readBack := Entry.Plain.ofLine_line h
      simp [Part.lines, Part.entries, hread, Except.toOption]

/-- Each emitted entry is read back, on a line of its own and in its place, and what is written
past the emitter is read as it is when nothing else is written. -/
theorem ofParts_readBack (runId : String) (ps : List Part) (h : ∀ p ∈ ps, p.Whole) :
    (ofParts runId ps).lines = (Part.labelFrom runId 0 ps).flatMap (Part.lines runId) ∧
      (ofParts runId ps).entries = (Part.labelFrom runId 0 ps).flatMap (Part.entries runId) := by
  refine ⟨lines_ofParts h, ?_⟩
  have hwhole := Part.whole_labelFrom runId 0 h
  rw [Output.entries, lines_ofParts h, List.filterMap_flatMap]
  refine List.flatMap_congr fun p hp => ?_
  exact entries_lines (hwhole p hp)

/-- Bytes that are no text, a line that is no entry, a line feed in an entry and an entry with an
identifier of its own. -/
theorem ofParts_readBack_garbage :
    let e : Entry :=
      { timestamp := "t", traceId := "", level := .info, event := "a\n", details := some .null }
    let ps : List Part :=
      [.raw [0xE2, 0x82, 0x0A], .entry e, .raw [], .raw [0x7B, 0xFF, 0x0D, 0x0A],
        .entry { e with traceId := "own" }, .entry e]
    (∀ p ∈ ps, p.Whole) ∧ (ofParts "r" ps).lines.length = 5 ∧
      (ofParts "r" ps).entries =
        [{ e with traceId := "kcrt::r::core::000001", details := none },
          { e with traceId := "own", details := none },
          { e with traceId := "kcrt::r::core::000002", details := none }] := by
  intro e ps
  have hplain : ∀ id, Entry.Plain { e with traceId := id } := by
    intro id v hv
    exact Option.some.inj hv ▸ .null
  have hwhole : ∀ p ∈ ps, p.Whole := by
    simp only [ps, List.forall_mem_cons]
    exact ⟨.inr rfl, hplain _, .inl rfl, .inr rfl, hplain _, hplain _, fun _ h => nomatch h⟩
  obtain ⟨hlines, hentries⟩ := ofParts_readBack "r" ps hwhole
  refine ⟨hwhole, ?_, ?_⟩
  · rw [hlines]
    decide
  · rw [hentries]
    rfl

end Buffer

end Hosted.Log
