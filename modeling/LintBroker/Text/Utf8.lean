/-! # Reading bytes as UTF-8 -/
namespace LintBroker.Text

/-- The text that bytes encode, if they encode one. -/
def decodeUtf8? (bytes : List UInt8) : Option String :=
  String.fromUTF8? ⟨bytes.toArray⟩

end LintBroker.Text
