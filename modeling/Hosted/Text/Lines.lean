/-!
# Lines

A line ends at a line feed, and a carriage return just before it belongs to the
ending. Text after the last line feed is a line if there is any.
-/

namespace Hosted

/-- Cuts `text` at line feeds; `line` is the part of the current line already
read, newest character first. -/
def splitLines (line : List Char) : List Char → List (List Char)
  | [] => if line.isEmpty then [] else [line.reverse]
  | c :: rest =>
    if c = '\n' then
      (match line with
        | '\r' :: kept => kept.reverse
        | _ => line.reverse) :: splitLines [] rest
    else splitLines (c :: line) rest

/-- The lines of a text, without their endings. -/
def lines (text : List Char) : List (List Char) := splitLines [] text

@[simp] theorem lines_nil : lines [] = [] := rfl

end Hosted
