import Laplace.Lib.BreakRules
import Laplace.Lib.Segments
import Laplace.Uax29.Tables

/-!
# `GraphemeNext`, `WordNext`, `SentenceNext` (uax29.cpp:287-528)

Each function is a loop over `index` from `from + 1` on that returns the first `index` without
`no_break`. The loop is a scanner: its state holds the variables of the loop and the code points before
`index`, last one first, which the loop reads back with `cps[index - 1]` and `PreviousSignificant`.
An index into the text before is here the code point with those before it, and `SIZE_MAX` is `none`.
-/

namespace Laplace.Uax29

variable (t : Tables)

/-! ## Grapheme clusters -/

/-- The variables of the loop of `GraphemeNext`; `previousCp` is `cps[index - 1]`. -/
structure GraphemeState where
  previousCp : UInt32
  riRun : Nat
  sawPictograph : Bool
  sawIncbConsonant : Bool
  sawIncbLinker : Bool
deriving DecidableEq, Repr

def graphemeEnter (before : List UInt32) (first : UInt32) : GraphemeState :=
  { previousCp := first
    riRun :=
      if t.grapheme first = .regionalIndicator then
        1 + (before.takeWhile fun cp => t.grapheme cp = .regionalIndicator).length
      else 0
    sawPictograph := t.extendedPictographic first
    sawIncbConsonant := t.incb first = .consonant
    sawIncbLinker := false }

def graphemeNoBreak (st : GraphemeState) (currentCp : UInt32) : Bool :=
  let previous := t.grapheme st.previousCp
  let current := t.grapheme currentCp
  if previous = .cr ∧ current = .lf then true
  else if previous = .control ∨ previous = .cr ∨ previous = .lf then false
  else if current = .control ∨ current = .cr ∨ current = .lf then false
  else if previous = .l ∧ (current = .l ∨ current = .v ∨ current = .lv ∨ current = .lvt) then true
  else if (previous = .lv ∨ previous = .v) ∧ (current = .v ∨ current = .t) then true
  else if (previous = .lvt ∨ previous = .t) ∧ current = .t then true
  else if current = .extend ∨ current = .zwj then true
  else if current = .spacingMark then true
  else if previous = .prepend then true
  else if st.sawIncbConsonant ∧ st.sawIncbLinker ∧ t.incb currentCp = .consonant then true
  else if st.sawPictograph ∧ previous = .zwj ∧ t.extendedPictographic currentCp then true
  else if previous = .regionalIndicator ∧ current = .regionalIndicator ∧ st.riRun % 2 = 1 then true
  else false

def graphemeAdvance (st : GraphemeState) (currentCp : UInt32) : GraphemeState :=
  let current := t.grapheme currentCp
  let incb := t.incb currentCp
  { previousCp := currentCp
    riRun := if current = .regionalIndicator then st.riRun + 1 else 0
    sawPictograph :=
      if t.extendedPictographic currentCp then true
      else if current ≠ .extend ∧ current ≠ .zwj then false
      else st.sawPictograph
    sawIncbConsonant :=
      if incb = .consonant then true
      else if incb = .linker then st.sawIncbConsonant
      else if incb ≠ .extend then false
      else st.sawIncbConsonant
    sawIncbLinker :=
      if incb = .consonant then false
      else if incb = .linker then if st.sawIncbConsonant then true else st.sawIncbLinker
      else if incb ≠ .extend then false
      else st.sawIncbLinker }

def graphemeScanner : Scanner UInt32 GraphemeState where
  enter := graphemeEnter t
  joins st currentCp _ := graphemeNoBreak t st currentCp
  advance := graphemeAdvance t

def graphemeNext : List UInt32 → Nat → Nat := (graphemeScanner t).next

/-! ## Words -/

def wordIgnored (value : WordBreak) : Bool := value == .extend || value == .format || value == .zwj

def ahLetter (value : WordBreak) : Bool := value == .aletter || value == .hebrewLetter

def midLetterOrQuote (value : WordBreak) : Bool :=
  value == .midLetter || value == .midNumLet || value == .singleQuote

def midNumOrQuote (value : WordBreak) : Bool :=
  value == .midNum || value == .midNumLet || value == .singleQuote

def wb13aLeft (value : WordBreak) : Bool :=
  ahLetter value || value == .numeric || value == .katakana || value == .extendNumLet

def wb13bRight (value : WordBreak) : Bool :=
  ahLetter value || value == .numeric || value == .katakana

def previousSignificant (before : List UInt32) : Option (UInt32 × List UInt32) :=
  lastKept (fun cp => wordIgnored (t.word cp)) before

/-- `look`: the class of the first code point after `index` that is not ignored. -/
def lookAhead (rest : List UInt32) : Option WordBreak :=
  (rest.dropWhile fun cp => wordIgnored (t.word cp)).head?.map t.word

/-- The class of `PreviousSignificant(previous_index)`. -/
def lookBehind (before : List UInt32) : Option WordBreak :=
  (previousSignificant t before).map fun p => t.word p.1

/-- The variables of the loop of `WordNext`, and the code points before `index`. -/
structure WordState where
  riRun : Nat
  previousLiteral : WordBreak
  before : List UInt32
deriving DecidableEq, Repr

def wordEnter (before : List UInt32) (first : UInt32) : WordState :=
  { riRun :=
      if t.word first = .regionalIndicator then
        1 + (before.takeWhile fun cp => t.word cp = .regionalIndicator).length
      else 0
    previousLiteral := t.word first
    before := first :: before }

/-- The branches for two significant code points; `beforePrevious` lies before the left one. -/
def significantNoBreak (riRun : Nat) (previous : WordBreak) (beforePrevious : List UInt32)
    (current : WordBreak) (rest : List UInt32) : Bool :=
  if ahLetter previous && ahLetter current then true
  else if ahLetter previous && midLetterOrQuote current then (lookAhead t rest).any ahLetter
  else if midLetterOrQuote previous && ahLetter current then
    (lookBehind t beforePrevious).any ahLetter
  else if previous == .hebrewLetter && current == .singleQuote then true
  else if previous == .hebrewLetter && current == .doubleQuote then
    (lookAhead t rest).any (· == .hebrewLetter)
  else if previous == .doubleQuote && current == .hebrewLetter then
    (lookBehind t beforePrevious).any (· == .hebrewLetter)
  else if previous == .numeric && current == .numeric then true
  else if ahLetter previous && current == .numeric then true
  else if previous == .numeric && ahLetter current then true
  else if midNumOrQuote previous && current == .numeric then
    (lookBehind t beforePrevious).any (· == .numeric)
  else if previous == .numeric && midNumOrQuote current then (lookAhead t rest).any (· == .numeric)
  else if previous == .katakana && current == .katakana then true
  else if wb13aLeft previous && current == .extendNumLet then true
  else if previous == .extendNumLet && wb13bRight current then true
  else previous == .regionalIndicator && current == .regionalIndicator && riRun % 2 == 1

def wordNoBreak (st : WordState) (currentCp : UInt32) (rest : List UInt32) : Bool :=
  let current := t.word currentCp
  if st.previousLiteral = .cr ∧ current = .lf then true
  else if st.previousLiteral = .newline ∨ st.previousLiteral = .cr ∨ st.previousLiteral = .lf then false
  else if current = .newline ∨ current = .cr ∨ current = .lf then false
  else if st.previousLiteral = .zwj ∧ t.extendedPictographic currentCp then true
  else if st.previousLiteral = .wsegspace ∧ current = .wsegspace then true
  else if wordIgnored current then true
  else match previousSignificant t st.before with
    | none => false
    | some (previousCp, beforePrevious) =>
      significantNoBreak t st.riRun (t.word previousCp) beforePrevious current rest

def wordAdvance (st : WordState) (currentCp : UInt32) : WordState :=
  let current := t.word currentCp
  { riRun :=
      if current = .regionalIndicator then st.riRun + 1
      else if !wordIgnored current then 0
      else st.riRun
    previousLiteral := current
    before := currentCp :: st.before }

def wordScanner : Scanner UInt32 WordState where
  enter := wordEnter t
  joins := wordNoBreak t
  advance := wordAdvance t

def wordNext : List UInt32 → Nat → Nat := (wordScanner t).next

/-! ## Sentences -/

def sentenceIgnored (value : SentenceBreak) : Bool := value == .extend || value == .format

/-- The loop of `TrailingTerm` under its flags; `is_aterm` and `had_spaces` when it returns true. -/
def trailingTermFrom : Bool → Bool → Bool → List UInt32 → Option (Bool × Bool)
  | _, _, _, [] => none
  | allowSpaces, allowClose, hadSpaces, cp :: before =>
    let value := t.sentence cp
    if sentenceIgnored value then trailingTermFrom allowSpaces allowClose hadSpaces before
    else if allowSpaces && value == .sp then trailingTermFrom allowSpaces allowClose true before
    else if allowClose && value == .close then trailingTermFrom false allowClose hadSpaces before
    else if value == .aterm then some (true, hadSpaces)
    else if value == .sterm then some (false, hadSpaces)
    else none

def trailingTerm (before : List UInt32) : Option (Bool × Bool) :=
  trailingTermFrom t true true false before

def sb8FindsLower : List UInt32 → Bool
  | [] => false
  | cp :: rest =>
    let value := t.sentence cp
    if sentenceIgnored value then sb8FindsLower rest
    else if value = .lower then true
    else if value = .oletter ∨ value = .upper ∨ value = .sep ∨ value = .cr ∨ value = .lf ∨
        value = .sterm ∨ value = .aterm then false
    else sb8FindsLower rest

/-- `Sb7Matches`, with `previous_index` as the code point there and those before it. -/
def sb7Matches (previous : Option (UInt32 × List UInt32)) (current : SentenceBreak) : Bool :=
  match previous with
  | none => false
  | some (previousCp, before) =>
    current == .upper && t.sentence previousCp == .aterm &&
      (lastKept (fun cp => sentenceIgnored (t.sentence cp)) before).any fun p =>
        t.sentence p.1 == .upper || t.sentence p.1 == .lower

/-- A round of the loop of `SentenceNext`: true where the source continues. -/
def sentenceContinues (before : List UInt32) (currentCp : UInt32) (rest : List UInt32) : Bool :=
  let previousLiteral := before.head?.map t.sentence
  let current := t.sentence currentCp
  if previousLiteral = some .cr ∧ current = .lf then true
  else if previousLiteral = some .sep ∨ previousLiteral = some .cr ∨ previousLiteral = some .lf then false
  else if sentenceIgnored current then true
  else
    let previous := lastKept (fun cp => sentenceIgnored (t.sentence cp)) before
    if (previous.map fun p => t.sentence p.1) = some .aterm ∧ current = .numeric then true
    else if sb7Matches t previous current then true
    else match trailingTerm t before with
      | none => true
      | some (isAterm, hadSpaces) =>
        if isAterm && sb8FindsLower t (currentCp :: rest) then true
        else if current = .scontinue ∨ current = .sterm ∨ current = .aterm then true
        else if !hadSpaces ∧ (current = .close ∨ current = .sp ∨ current = .sep ∨ current = .cr ∨
            current = .lf) then true
        else if current = .sp ∨ current = .sep ∨ current = .cr ∨ current = .lf then true
        else false

def sentenceScanner : Scanner UInt32 (List UInt32) where
  enter before first := first :: before
  joins := sentenceContinues t
  advance before currentCp := currentCp :: before

def sentenceNext : List UInt32 → Nat → Nat := (sentenceScanner t).next

end Laplace.Uax29
