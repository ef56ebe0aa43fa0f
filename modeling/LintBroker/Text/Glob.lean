/-! # Shell patterns

A pattern is a list of pieces: a star for any text, a question mark for any character, a class in
brackets, and characters that stand for themselves. A pattern has to match a text as a whole; no
character, not even the slash, is special to it. -/
namespace LintBroker.Text.Glob

/-- A character of a class as written, marked if it can only stand for itself. -/
structure Token where
  char : Char
  plain : Bool
deriving DecidableEq, Repr, Inhabited

/-- One member of a class: a closed range of characters. -/
structure Range where
  first : Char
  last : Char
deriving DecidableEq, Repr, Inhabited

/-- What one position of a pattern stands for. -/
inductive Piece
  | star
  | anyChar
  | never
  | char (c : Char)
  | oneOf (ranges : List Range)
  | noneOf (ranges : List Range)
deriving DecidableEq, Repr, Inhabited

/-- Splits the inside of a class at the hyphens that make ranges. The part before a hyphen and the
part after it have a character each at least; `held` is the current part, last character first, and
`wait` says how many more characters it needs before a hyphen can end it. -/
def splitRanges (held : List Char) (wait : Nat) : List Char → List (List Char)
  | [] => [held.reverse]
  | c :: rest =>
    match wait with
    | n + 1 => splitRanges (c :: held) n rest
    | 0 =>
      if c = '-' then held.reverse :: splitRanges [] 2 rest
      else splitRanges (c :: held) 0 rest

/-- Takes an empty last part back: the hyphen before it stands for itself. -/
def keepFinalHyphen : List (List Char) → List (List Char)
  | [a, []] => [a ++ ['-']]
  | a :: rest => a :: keepFinalHyphen rest
  | [] => []

/-- Drops the two ends of every range that would run backwards, from the last range to the first. -/
def dropReversed : List (List Char) → List (List Char)
  | [] => []
  | a :: rest =>
    match dropReversed rest with
    | [] => [a]
    | b :: more =>
      match a.getLast?, b.head? with
      | some x, some y => if y < x then (a.dropLast ++ b.drop 1) :: more else a :: b :: more
      | _, _ => a :: b :: more

/-- The parts of a class joined again; only the hyphens between them make ranges. -/
def joinParts : List (List Char) → List Token
  | [] => []
  | [a] => a.map fun c => ⟨c, c = '-' || c = '\\'⟩
  | a :: rest => (a.map fun c => ⟨c, c = '-' || c = '\\'⟩) ++ ⟨'-', false⟩ :: joinParts rest

/-- Reads the members of a class. A hyphen between two tokens makes a range. -/
def readRanges : List Token → List Range
  | [] => []
  | a :: ⟨'-', false⟩ :: b :: rest => ⟨a.char, b.char⟩ :: readRanges rest
  | a :: rest => ⟨a.char, a.char⟩ :: readRanges rest

def classPiece (inside : List Char) : Piece :=
  let tokens :=
    if inside.contains '-' then
      let wait := if inside.head? = some '!' then 2 else 1
      joinParts (dropReversed (keepFinalHyphen (splitRanges [] wait inside)))
    else inside.map fun c => ⟨c, true⟩
  match tokens with
  | [] => .never
  | ⟨'!', _⟩ :: [] => .anyChar
  | ⟨'!', _⟩ :: rest => .noneOf (readRanges rest)
  | tokens => .oneOf (readRanges tokens)

/-- How many characters at the start of a class cannot close it: the exclamation mark and a closing
bracket that comes first after it. -/
def classLead : List Char → Nat
  | '!' :: ']' :: _ => 2
  | '!' :: _ => 1
  | ']' :: _ => 1
  | _ => 0

/-- The inside of the class that starts here, if a bracket closes it. -/
def classInside (cs : List Char) : Option (List Char) :=
  let rest := cs.drop (classLead cs)
  if rest.contains ']' then some (cs.take (classLead cs) ++ rest.takeWhile (· != ']')) else none

/-- The pieces of a pattern, a number of whose characters have been read already. A bracket without
a partner stands for itself. -/
def parseFrom (skip : Nat) : List Char → List Piece
  | [] => []
  | c :: rest =>
    match skip with
    | n + 1 => parseFrom n rest
    | 0 =>
      if c = '*' then .star :: parseFrom 0 rest
      else if c = '?' then .anyChar :: parseFrom 0 rest
      else if c = '[' then
        match classInside rest with
        | some inside => classPiece inside :: parseFrom (inside.length + 1) rest
        | none => .char c :: parseFrom 0 rest
      else .char c :: parseFrom 0 rest

def parse (cs : List Char) : List Piece := parseFrom 0 cs

def inRanges (ranges : List Range) (c : Char) : Bool :=
  ranges.any fun r => r.first ≤ c && c ≤ r.last

/-- Whether a piece other than the star stands for a character. -/
def Piece.admits : Piece → Char → Bool
  | .star, _ => false
  | .never, _ => false
  | .anyChar, _ => true
  | .char x, c => x == c
  | .oneOf ranges, c => inRanges ranges c
  | .noneOf ranges, c => !inRanges ranges c

/-- From the end: whether one of the entries from here on is true. -/
def anyFromHere : List Bool → List Bool
  | [] => []
  | b :: rest =>
    match anyFromHere rest with
    | [] => [b]
    | later :: more => (b || later) :: later :: more

/-- One more piece in front. An entry of a row says whether the pieces match the text from the
entry's place on. -/
def prepend (cs : List Char) (p : Piece) (row : List Bool) : List Bool :=
  match p with
  | .star => anyFromHere row
  | p => List.zipWith (fun c later => p.admits c && later) cs (row.drop 1) ++ [false]

/-- Whether pieces match a text as a whole. -/
def matchesAll (ps : List Piece) (cs : List Char) : Bool :=
  (ps.foldr (prepend cs) (List.replicate cs.length false ++ [true])).headD false

def test (pattern text : List Char) : Bool := matchesAll (parse pattern) text

end LintBroker.Text.Glob
