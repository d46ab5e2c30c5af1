import Mathlib.Tactic

/-!
# Property tables (uax29.cpp:11-46, 281-285)

The internal property values of a code point, under the names of the Unicode property files. The
vectors of `laplace_uax29_tables` have an entry for every code point, so they are functions here.
-/

namespace Laplace.Uax29

/-- `GB_*` -/
inductive GraphemeBreak
  | other | cr | lf | control | extend | zwj | regionalIndicator | prepend | spacingMark | l | v | t
  | lv | lvt
deriving DecidableEq, Repr

/-- `WB_*` -/
inductive WordBreak
  | other | cr | lf | newline | extend | zwj | regionalIndicator | format | katakana | hebrewLetter
  | aletter | singleQuote | doubleQuote | midNumLet | midLetter | midNum | numeric | extendNumLet
  | wsegspace
deriving DecidableEq, Repr

/-- `SB_*` -/
inductive SentenceBreak
  | other | cr | lf | extend | sep | format | sp | lower | upper | oletter | numeric | aterm
  | scontinue | sterm | close
deriving DecidableEq, Repr

/-- `INCB_*` -/
inductive Incb
  | none | extend | linker | consonant
deriving DecidableEq, Repr

/-- `laplace_uax29_tables`, read through `G`, `W`, `S`, `I` and `EP`. -/
structure Tables where
  grapheme : UInt32 → GraphemeBreak
  word : UInt32 → WordBreak
  sentence : UInt32 → SentenceBreak
  incb : UInt32 → Incb
  extendedPictographic : UInt32 → Bool

/-- What the Unicode property files keep between the properties: pictographs and conjunct consonants
are of no grapheme class, conjunct linkers and extenders are marks or ZWJ, and neither regional
indicators nor the single quote are pictographs. -/
structure Tables.UnicodeConsistent (t : Tables) : Prop where
  pictograph_grapheme : ∀ cp, t.extendedPictographic cp = true → t.grapheme cp = .other
  pictograph_incb : ∀ cp, t.extendedPictographic cp = true → t.incb cp ≠ .consonant
  pictograph_word : ∀ cp, t.extendedPictographic cp = true →
    t.word cp ≠ .regionalIndicator ∧ t.word cp ≠ .singleQuote
  consonant_grapheme : ∀ cp, t.incb cp = .consonant → t.grapheme cp = .other
  mark_grapheme : ∀ cp, t.incb cp = .extend ∨ t.incb cp = .linker →
    t.grapheme cp = .extend ∨ t.grapheme cp = .zwj ∨ t.grapheme cp = .spacingMark

end Laplace.Uax29
