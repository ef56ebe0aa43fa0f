import LintBroker.Number.Decimal
import LintBroker.Text.Quoted
import LintBroker.Value.Basic

/-! # The text of values

Two texts belong to a value: the *literal*, which shows strings in quotes, and the *plain* text,
which differs from it only in that a string is shown as it is and a scope by its member's name. -/
namespace LintBroker
namespace Value
open Text Number

/-- Items separated by commas. -/
def commaJoined (items : List String) : String := ", ".intercalate items

mutual
def literal : Value → String
  | .none => "None"
  | .bool true => "True"
  | .bool false => "False"
  | .int i => toString i
  | .real x => x.text
  | .str s => quoted s
  | .scope s => "<Scope." ++ s.memberName ++ ": " ++ quoted s.word ++ ">"
  | .bytes b => quotedBytes b
  | .list items => "[" ++ commaJoined (literals items) ++ "]"
  | .tuple [item] => "(" ++ literal item ++ ",)"
  | .tuple items => "(" ++ commaJoined (literals items) ++ ")"
  | .set [] => "set()"
  | .set items => "\x7b" ++ commaJoined (literals items) ++ "\x7d"
  | .dict rows => "\x7b" ++ commaJoined (rowLiterals rows) ++ "\x7d"
  | .stream _ => "<generator object>"
  | .object t => "<" ++ t ++ " object>"

def literals : List Value → List String
  | [] => []
  | v :: rest => literal v :: literals rest

/-- The rows of a dictionary, key and value separated by a colon. -/
def rowLiterals : List (String × Value) → List String
  | [] => []
  | (k, v) :: rest => (quoted k ++ ": " ++ literal v) :: rowLiterals rest
end

def plain : Value → String
  | .str s => s
  | .scope s => "Scope." ++ s.memberName
  | v => v.literal

end Value
end LintBroker
