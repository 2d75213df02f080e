/-!
# Lines of a text

A text is a row of lines with a line feed between two of them. So a text that ends in a line feed
has an empty last line, and the empty text has one line.

Models the lines of the files that `load_config` reads.
-/

namespace IndexAdvisor

/-- The lines of a text. -/
def splitLines : List Char → List (List Char)
  | [] => [[]]
  | c :: cs =>
    if c = '\n' then [] :: splitLines cs
    else match splitLines cs with
      | line :: more => (c :: line) :: more
      | [] => [[c]]

end IndexAdvisor
