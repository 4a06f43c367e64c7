import Hosted.Text.Lines
import Mathlib.Data.List.Basic

/-!
# Text cut at line ends

What stands before a line feed and what stands after it are cut into lines on their own.
-/

namespace Hosted

variable {text : List Char}

theorem splitLines_append_newline (line text rest : List Char) :
    splitLines line (text ++ '\n' :: rest) =
      splitLines line (text ++ ['\n']) ++ splitLines [] rest := by
  induction text generalizing line with
  | nil => simp [splitLines]
  | cons c text ih =>
      by_cases hc : c = '\n'
      · simp [splitLines, hc, ih]
      · simp [splitLines, hc, ih]

theorem lines_append_newline (text rest : List Char) :
    lines (text ++ '\n' :: rest) = lines (text ++ ['\n']) ++ lines rest :=
  splitLines_append_newline [] text rest

theorem splitLines_append_of_not_mem (h : '\n' ∉ text) (line rest : List Char) :
    splitLines line (text ++ rest) = splitLines (text.reverse ++ line) rest := by
  induction text generalizing line with
  | nil => rfl
  | cons c text ih =>
      have hc : ¬c = '\n' := fun heq => h (heq ▸ List.mem_cons_self)
      have htext : '\n' ∉ text := fun hmem => h (List.mem_cons_of_mem _ hmem)
      simp [splitLines, hc, ih htext]

/-- Text without line feeds is one line, unless it ends like a line ending. -/
theorem lines_append_of_not_mem (h : '\n' ∉ text) (hlast : text.getLast? ≠ some '\r') :
    lines (text ++ ['\n']) = [text] := by
  have hreturn : ∀ kept, text.reverse ≠ '\r' :: kept := by
    intro kept hkept
    rw [← List.head?_reverse, hkept] at hlast
    exact hlast rfl
  rw [lines, splitLines_append_of_not_mem h, List.append_nil, splitLines, if_pos rfl,
    List.reverse_reverse]
  · rfl
  · exact hreturn

end Hosted
