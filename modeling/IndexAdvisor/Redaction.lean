import IndexAdvisor.Text.Blank
import IndexAdvisor.Text.Pattern

/-!
# What leaves the process

The text of an error is shown to whoever sent the statement, so paths, addresses and the noise of
the driver are taken out of it first. The steps run one after the other, each on the result of the
one before; paths go first because they may contain what looks like an address. At the end blanks
are collapsed and trimmed, and one colon or comma that is left hanging is dropped.

Models `sanitize_error`.
-/

namespace IndexAdvisor.Redaction

open Pattern

/-- The characters of a path on systems that separate directories by a slash. -/
def isPathChar (c : Char) : Bool := isWordChar c || c == '.' || c == '/' || c == '-'

/-- The characters of a path after a drive letter. -/
def isDrivePathChar (c : Char) : Bool := isPathChar c || c == '\\'

/-- What the driver puts before a message of the engine. -/
def driverNote : Pattern := all [
  literal "error returned from database:", anyNumber isBlank,
  optional (all [literal "(code: ", oneOrMore isDecimalDigit, literal ")", anyNumber isBlank])]

/-- A path of at least two parts from the root. -/
def rootedPath : Pattern := all [one '/', oneOrMore isPathChar, one '/', oneOrMore isPathChar]

/-- A path on a drive. -/
def drivePath : Pattern :=
  all [row Char.isAlpha 1 (some 1), literal ":\\", oneOrMore isDrivePathChar]

/-- A number of one to three digits. -/
def shortNumber : Pattern := row isDecimalDigit 1 (some 3)

/-- Four short numbers with points between them. -/
def fourNumbers : Pattern := all [
  shortNumber, one '.', shortNumber, one '.', shortNumber, one '.', shortNumber]

/-- A network address with a service number. -/
def addressAndService : Pattern := all [
  edge, fourNumbers, one ':', row isDecimalDigit 1 (some 5), edge]

/-- A network address. -/
def address : Pattern := all [edge, fourNumbers, edge]

/-- The number of a system error, with the blanks before it. -/
def systemError : Pattern :=
  all [anyNumber isBlank, literal "(os error ", oneOrMore isDecimalDigit, literal ")"]

/-- A row of blanks. -/
def blanks : Pattern := oneOrMore isBlank

/-- What stands for something taken out. -/
def redacted : String := "[REDACTED]"

/-- The patterns in the order in which they are replaced, with what stands for them afterwards. -/
def steps : List (Pattern × String) := [
  (driverNote, ""), (rootedPath, redacted), (drivePath, redacted), (addressAndService, redacted),
  (address, redacted), (systemError, ""), (blanks, " ")]

/-- Drops one colon or comma from the end of a text. -/
def dropMark (cs : List Char) : List Char :=
  if cs.getLast? == some ':' || cs.getLast? == some ',' then cs.dropLast else cs

/-- The text of an error without what must not be shown. -/
def redact (text : String) : String :=
  let cleaned := steps.foldl (fun cs step => step.1.replaceAll step.2.toList cs) text.toList
  String.ofList (dropMark (trimBlanks cleaned))

end IndexAdvisor.Redaction
