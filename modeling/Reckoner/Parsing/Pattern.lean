import Reckoner.Text.Digit
/-!
# Patterns

Regular expressions with preferences: of two alternatives the left one is tried first, a repetition
goes on as long as it can or, if it is lazy, stops as early as it can. What a pattern matches at the
front of a text is then its most preferred match, and `rests` lists what all the matches leave, in
the order of preference.
-/

namespace Reckoner

/-- Characters described one way; a class has several such parts. -/
inductive CharRange where
  | between (low high : Char)
  | digit

def CharRange.contains (c : Char) : CharRange → Bool
  | between low high => low ≤ c && c ≤ high
  | digit => Text.isDigit c

/-- The characters in any of the ranges or, negated, in none. -/
structure CharClass where
  ranges : List CharRange
  negated : Bool := false

def CharClass.contains (cls : CharClass) (c : Char) : Bool :=
  (cls.ranges.any (·.contains c)) != cls.negated

def CharClass.single (c : Char) : CharClass := ⟨[.between c c], false⟩

inductive Pattern where
  | empty
  | one (cls : CharClass)
  | seq (first second : Pattern)
  | alt (preferred other : Pattern)
  /-- From `least` times on, at most `extra` times more, or without end. -/
  | repeated (body : Pattern) (least : Nat) (extra : Option Nat) (greedy : Bool)

namespace Pattern

/-! ### Matching -/

/-- What is left after a step taken `count` times. -/
def exactly (step : Text → List Text) : (count : Nat) → Text → List Text
  | 0, text => [text]
  | count + 1, text => (step text).flatMap (exactly step count)

/-- What is left after a step taken up to `count` times. A step that reads nothing would only repeat
itself and is not taken. -/
def upTo (step : Text → List Text) (greedy : Bool) : (count : Nat) → Text → List Text
  | 0, text => [text]
  | count + 1, text =>
    let further :=
      ((step text).filter (·.length < text.length)).flatMap (upTo step greedy count)
    if greedy then further ++ [text] else text :: further

/-- What the matches at the front of a text leave, the preferred ones first. -/
def rests : Pattern → Text → List Text
  | empty, text => [text]
  | one cls, c :: text => if cls.contains c then [text] else []
  | one _, [] => []
  | seq first second, text => (first.rests text).flatMap second.rests
  | alt preferred other, text => preferred.rests text ++ other.rests text
  | repeated body least extra greedy, text =>
    (exactly body.rests least text).flatMap fun rest =>
      upTo body.rests greedy (extra.getD rest.length) rest

/-- The preferred match at the front of a text, and what it leaves. -/
def match? (pattern : Pattern) (text : Text) : Option (Text × Text) :=
  (pattern.rests text).head?.map fun rest => (text.take (text.length - rest.length), rest)

/-! ### Reading a pattern

Each reader takes what it can from the front of the text and gives back the rest. The fuel bounds
the nesting of groups, which is less than the length of the text. -/

/-- The parts of a class, up to the bracket that closes it. -/
def readRanges : Text → Option (List CharRange × Text)
  | [] => none
  | ']' :: rest => some ([], rest)
  | '\\' :: 'd' :: rest => (readRanges rest).map fun (ranges, rest) => (.digit :: ranges, rest)
  | '\\' :: c :: rest =>
    (readRanges rest).map fun (ranges, rest) => (.between c c :: ranges, rest)
  | c :: '-' :: ']' :: rest => some ([.between c c, .between '-' '-'], rest)
  | c :: '-' :: d :: rest =>
    (readRanges rest).map fun (ranges, rest) => (.between c d :: ranges, rest)
  | c :: rest => (readRanges rest).map fun (ranges, rest) => (.between c c :: ranges, rest)

def readClass : Text → Option (CharClass × Text)
  | '^' :: rest => (readRanges rest).map fun (ranges, rest) => (⟨ranges, true⟩, rest)
  | text => (readRanges text).map fun (ranges, rest) => (⟨ranges, false⟩, rest)

/-- The bounds of a counted repetition, after its opening brace. -/
def readBounds (text : Text) : Option (Nat × Option Nat × Text) :=
  let low := text.takeWhile Text.isDigit
  match text.dropWhile Text.isDigit with
  | '}' :: rest => some (Text.digitsValue low, some 0, rest)
  | ',' :: after =>
    let high := after.takeWhile Text.isDigit
    match after.dropWhile Text.isDigit with
    | '}' :: rest =>
      let least := Text.digitsValue low
      some (least, if high.isEmpty then none else some (Text.digitsValue high - least), rest)
    | _ => none
  | _ => none

/-- How often the part before is repeated, if that is said next. -/
def readCount : Text → Option (Nat × Option Nat × Text)
  | '*' :: rest => some (0, none, rest)
  | '+' :: rest => some (1, none, rest)
  | '?' :: rest => some (0, some 1, rest)
  | '{' :: rest => readBounds rest
  | _ => none

/-- The part with the repetition that follows it. -/
def readRepetition (body : Pattern) (text : Text) : Pattern × Text :=
  match readCount text with
  | none => (body, text)
  | some (least, extra, '?' :: rest) => (repeated body least extra false, rest)
  | some (least, extra, rest) => (repeated body least extra true, rest)

mutual

def readAlternatives : (fuel : Nat) → Text → Option (Pattern × Text)
  | 0, _ => none
  | fuel + 1, text => do
    let (first, rest) ← readSequence fuel text
    match rest with
    | '|' :: rest =>
      let (other, rest) ← readAlternatives fuel rest
      return (alt first other, rest)
    | rest => return (first, rest)

def readSequence : (fuel : Nat) → Text → Option (Pattern × Text)
  | 0, _ => none
  | _ + 1, [] => some (empty, [])
  | _ + 1, '|' :: rest => some (empty, '|' :: rest)
  | _ + 1, ')' :: rest => some (empty, ')' :: rest)
  | fuel + 1, text => do
    let (atom, rest) ← readAtom fuel text
    let (part, rest) := readRepetition atom rest
    let (following, rest) ← readSequence fuel rest
    return (seq part following, rest)

def readAtom : (fuel : Nat) → Text → Option (Pattern × Text)
  | 0, _ => none
  | _ + 1, [] => none
  | _ + 1, '.' :: rest => some (one ⟨[.between '\n' '\n'], true⟩, rest)
  | _ + 1, '[' :: rest => (readClass rest).map fun (cls, rest) => (one cls, rest)
  | fuel + 1, '(' :: rest => do
    match ← readAlternatives fuel rest with
    | (group, ')' :: rest) => return (group, rest)
    | _ => none
  | _ + 1, '\\' :: 'd' :: rest => some (one ⟨[.digit], false⟩, rest)
  | _ + 1, '\\' :: c :: rest => some (one (.single c), rest)
  | _ + 1, c :: rest => some (one (.single c), rest)

end

/-- The pattern that a text writes. -/
def read? (text : Text) : Option Pattern :=
  match readAlternatives (3 * text.length + 3) text with
  | some (pattern, []) => some pattern
  | _ => none

end Pattern

end Reckoner
