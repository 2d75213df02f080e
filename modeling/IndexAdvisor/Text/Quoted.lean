/-!
# Quoted names and texts

SQL writes a name between double quotes and a text between single quotes, and a quote of the same
kind inside is written twice. `halve` undoes the doubling: it accepts exactly what `doubled`
produces.

Models `quote_identifier` and `quote_string`.
-/

namespace IndexAdvisor

/-- Writes the character `mark` twice wherever it occurs. -/
def doubled (mark : Char) : List Char → List Char
  | [] => []
  | c :: cs => if c = mark then c :: c :: doubled mark cs else c :: doubled mark cs

/-- Takes one of every two adjacent occurrences of `mark` away. -/
def halved (mark : Char) : List Char → List Char
  | [] => []
  | [c] => [c]
  | c :: d :: cs =>
    if c = mark ∧ d = mark then c :: halved mark cs else c :: halved mark (d :: cs)

/-- A text between two `mark`s, with the `mark`s inside doubled. -/
def quoted (mark : Char) (s : String) : String :=
  String.ofList (mark :: (doubled mark s.toList ++ [mark]))

/-- A name as SQL writes it: between double quotes. -/
def quoteName (name : String) : String := quoted '"' name

/-- A text value as SQL writes it: between single quotes. -/
def quoteText (text : String) : String := quoted '\'' text

end IndexAdvisor
