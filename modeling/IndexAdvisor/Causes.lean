/-!
# Why something failed

A failure is told by its causes, the outermost first, down to the root.

Models the chain of an error, as `explain` and `analyze` return it, and the line it is printed in.
-/

namespace IndexAdvisor

/-- The causes of a failure, the outermost first. -/
abbrev Causes := List String

/-- All causes in one line. -/
def causesText (causes : Causes) : String := String.intercalate ": " causes

end IndexAdvisor
