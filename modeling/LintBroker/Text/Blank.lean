import LintBroker.Text.Spans

/-! # Blank characters and trimming

Two notions of blank are in use: the wide one, which also counts the four ASCII separators
U+001C to U+001F, and the Unicode property `White_Space`, which does not. -/
namespace LintBroker.Text

def whiteSpaceSpans : Spans := [
  (0x9, 0xD), (0x20, 0x20), (0x85, 0x85), (0xA0, 0xA0), (0x1680, 0x1680), (0x2000, 0x200A),
  (0x2028, 0x2029), (0x202F, 0x202F), (0x205F, 0x205F), (0x3000, 0x3000)]

/-- Whether a character has the property `White_Space`. -/
def isWhiteSpace (c : Char) : Bool := whiteSpaceSpans.has c.toNat

/-- Blank characters: white space and the four ASCII separators. -/
def isBlank (c : Char) : Bool :=
  isWhiteSpace c || (0x1C ≤ c.toNat && c.toNat ≤ 0x1F)

/-- The characters left when a class is removed at both ends. -/
def trimChars (drop : Char → Bool) (cs : List Char) : List Char :=
  ((cs.dropWhile drop).reverse.dropWhile drop).reverse

def strip (s : String) : String := String.ofList (trimChars isBlank s.toList)

/-- Removes white space, in the narrower sense, at both ends. -/
def trimWhiteSpace (s : String) : String := String.ofList (trimChars isWhiteSpace s.toList)

@[simp] theorem trimChars_nil (drop : Char → Bool) : trimChars drop [] = [] := rfl

end LintBroker.Text
