import LintBroker.Text.PrintableTable

/-! # Printable characters -/
namespace LintBroker.Text

/-- Whether a character is shown as itself inside quotes. -/
def isPrintable (c : Char) : Bool :=
  if c.toNat < 0x7F then 0x20 ≤ c.toNat else !unprintableSpans.has c.toNat

end LintBroker.Text
