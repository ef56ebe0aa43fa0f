/-! # Sets of characters as intervals

A character class too large to spell out is a list of closed intervals of code points. -/
namespace LintBroker.Text

/-- Closed intervals of code points, in increasing order. -/
abbrev Spans := List (Nat × Nat)

/-- Whether a code point lies in one of the intervals. -/
def Spans.has (spans : Spans) (code : Nat) : Bool :=
  spans.any fun span => span.1 ≤ code && code ≤ span.2

end LintBroker.Text
