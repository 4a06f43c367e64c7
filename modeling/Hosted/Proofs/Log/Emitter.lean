import Hosted.Log.Emitter
import Mathlib.Tactic.SplitIfs

/-!
# What an emitter writes

Giving an identifier changes neither where an emitter writes nor any output. An entry is one
write to one output.
-/

namespace Hosted.Log

/-- The line of an entry, with its ending. -/
def Entry.bytes (e : Entry) : List UInt8 := Utf8.encode (e.line ++ ['\n'])

namespace Output

variable {o : Output}

theorem bytes_write (h : o.room = none) (bytes : List UInt8) :
    (o.write bytes).1.bytes = o.bytes ++ bytes := by
  simp [write, h, Output.bytes]

theorem room_write (h : o.room = none) (bytes : List UInt8) :
    (o.write bytes).1.room = none := by
  simp [write, h]

/-- An output after one write of an entry's line. -/
def accept (o : Output) (entry : Entry) : Output := (o.write entry.bytes).1

theorem bytes_foldl_accept (h : o.room = none) (entries : List Entry) :
    (entries.foldl accept o).bytes = o.bytes ++ entries.flatMap Entry.bytes := by
  induction entries generalizing o with
  | nil => simp
  | cons entry entries ih =>
      have haccept : (o.accept entry).room = none := room_write h _
      rw [List.foldl_cons, ih haccept, accept, bytes_write h, List.flatMap_cons,
        List.append_assoc]

end Output

theorem Emitter.output_label (e : Emitter) (entry : Entry) :
    (e.label entry).1.output = e.output := by
  unfold label
  split_ifs <;> rfl

theorem Emitter.emit_fst (e : Emitter) (outputs : List Output) (entry : Entry) :
    (e.emit outputs entry).1 = (e.label entry).1 := by
  unfold emit
  cases hlabel : e.label entry with
  | mk e' entry' => cases ho : outputs[e'.output]? <;> simp [ho]

/-- An emitter writes the line of the labelled entry to its output, and nothing else. -/
theorem Emitter.getElem?_emit (e : Emitter) (outputs : List Output) (entry : Entry) (n : Nat) :
    (e.emit outputs entry).2.1[n]? =
      outputs[n]?.map fun o => if e.output = n then o.accept (e.label entry).2 else o := by
  have houtput := e.output_label entry
  unfold emit
  cases hlabel : e.label entry with
  | mk e' entry' =>
      rw [hlabel] at houtput
      simp only at houtput ⊢
      rw [← houtput]
      by_cases hn : e'.output = n
      · subst hn
        cases ho : outputs[e'.output]? with
        | none => simp [ho]
        | some o =>
            obtain ⟨hlt, -⟩ := List.getElem?_eq_some_iff.1 ho
            simp [hlt, Output.accept, Entry.bytes]
      · cases ho : outputs[e'.output]? <;> simp [hn]

end Hosted.Log
