import Laplace.Uax29.Next

/-!
# The boundary rules of UAX #29

The rules as the annex writes them, one entry each and in its order; `*` between classes is
concatenation. Rules WB4 and SB5 (`X (Extend | Format | ZWJ)* → X`) join the ignored code points to
what they follow, and the later rules see the text without them (`strip`).

| code | here |
|---|---|
| `GraphemeNext` | `graphemeJoins`: GB3 to GB13, GB999 |
| `WordNext` | `wordJoins`: WB3 to WB16, WB999 |
| `SentenceNext` | `sentenceJoins`: SB3 to SB11, SB998 |
-/

namespace Laplace.Uax29

open BreakRule
open scoped Computability

variable (t : Tables)

/-! ## Grapheme clusters -/

def gb (values : List GraphemeBreak) : Language UInt32 := cls fun cp => t.grapheme cp ∈ values

def incbIs (values : List Incb) : Language UInt32 := cls fun cp => t.incb cp ∈ values

def extPict : Language UInt32 := cls fun cp => t.extendedPictographic cp = true

def graphemeRi (cp : UInt32) : Bool := t.grapheme cp = .regionalIndicator

def graphemeRules : List (BreakRule UInt32) :=
  [ join (gb t [.cr]) (gb t [.lf]),                                          -- GB3
    split (gb t [.control, .cr, .lf]) 1,                                     -- GB4
    split 1 (gb t [.control, .cr, .lf]),                                     -- GB5
    join (gb t [.l]) (gb t [.l, .v, .lv, .lvt]),                             -- GB6
    join (gb t [.lv, .v]) (gb t [.v, .t]),                                   -- GB7
    join (gb t [.lvt, .t]) (gb t [.t]),                                      -- GB8
    join 1 (gb t [.extend, .zwj]),                                           -- GB9
    join 1 (gb t [.spacingMark]),                                            -- GB9a
    join (gb t [.prepend]) 1,                                                -- GB9b
    join (incbIs t [.consonant] * (incbIs t [.extend, .linker])∗ * incbIs t [.linker] *
      (incbIs t [.extend, .linker])∗) (incbIs t [.consonant]),               -- GB9c
    join (extPict t * (gb t [.extend])∗ * gb t [.zwj]) (extPict t),          -- GB11
    joinAtStart (oddRun (graphemeRi t)) (gb t [.regionalIndicator]),         -- GB12
    join (cls (fun cp => graphemeRi t cp = false) * oddRun (graphemeRi t))
      (gb t [.regionalIndicator]),                                           -- GB13
    split 1 1 ]                                                              -- GB999

/-- `before × after`, by the rules of extended grapheme clusters. -/
def graphemeJoins (before after : List UInt32) : Prop := Decides (graphemeRules t) False before after

/-! ## Words -/

def wb (values : List WordBreak) : Language UInt32 := cls fun cp => t.word cp ∈ values

def ahLetterClass : Language UInt32 := wb t [.aletter, .hebrewLetter]

def midNumLetQ : List WordBreak := [.midNumLet, .singleQuote]

def wordRi (cp : UInt32) : Bool := t.word cp = .regionalIndicator

/-- `Newline | CR | LF`, after which nothing is ignored. -/
def wordResets (cp : UInt32) : Bool := t.word cp = .newline ∨ t.word cp = .cr ∨ t.word cp = .lf

/-- The rules before the ignored code points are dropped. -/
def wordLiteralRules : List (BreakRule UInt32) :=
  [ join (wb t [.cr]) (wb t [.lf]),                                          -- WB3
    split (wb t [.newline, .cr, .lf]) 1,                                     -- WB3a
    split 1 (wb t [.newline, .cr, .lf]),                                     -- WB3b
    join (wb t [.zwj]) (extPict t),                                          -- WB3c
    join (wb t [.wsegspace]) (wb t [.wsegspace]),                            -- WB3d
    join 1 (wb t [.extend, .format, .zwj]) ]                                 -- WB4

def wordJoinRules : List (BreakRule UInt32) :=
  [ join (ahLetterClass t) (ahLetterClass t),                                -- WB5
    join (ahLetterClass t) (wb t (.midLetter :: midNumLetQ) * ahLetterClass t),   -- WB6
    join (ahLetterClass t * wb t (.midLetter :: midNumLetQ)) (ahLetterClass t),   -- WB7
    join (wb t [.hebrewLetter]) (wb t [.singleQuote]),                       -- WB7a
    join (wb t [.hebrewLetter]) (wb t [.doubleQuote] * wb t [.hebrewLetter]),     -- WB7b
    join (wb t [.hebrewLetter] * wb t [.doubleQuote]) (wb t [.hebrewLetter]),     -- WB7c
    join (wb t [.numeric]) (wb t [.numeric]),                                -- WB8
    join (ahLetterClass t) (wb t [.numeric]),                                -- WB9
    join (wb t [.numeric]) (ahLetterClass t),                                -- WB10
    join (wb t [.numeric] * wb t (.midNum :: midNumLetQ)) (wb t [.numeric]), -- WB11
    join (wb t [.numeric]) (wb t (.midNum :: midNumLetQ) * wb t [.numeric]), -- WB12
    join (wb t [.katakana]) (wb t [.katakana]),                              -- WB13
    join (wb t [.aletter, .hebrewLetter, .numeric, .katakana, .extendNumLet])
      (wb t [.extendNumLet]),                                                -- WB13a
    join (wb t [.extendNumLet]) (wb t [.aletter, .hebrewLetter, .numeric, .katakana]),  -- WB13b
    joinAtStart (oddRun (wordRi t)) (wb t [.regionalIndicator]),             -- WB15
    join (cls (fun cp => wordRi t cp = false) * oddRun (wordRi t)) (wb t [.regionalIndicator]) ]  -- WB16

/-- The text as the rules after WB4 see it. -/
def wordStrip (text : List UInt32) : List UInt32 :=
  strip (fun cp => wordIgnored (t.word cp)) (wordResets t) false text

/-- `before × after`, by the rules of words; the last rule is WB999. -/
def wordJoins (before after : List UInt32) : Prop :=
  Decides (wordLiteralRules t)
    (Decides (wordJoinRules t ++ [split 1 1]) False (wordStrip t before) (wordStrip t after))
    before after

/-! ## Sentences -/

def sb (values : List SentenceBreak) : Language UInt32 := cls fun cp => t.sentence cp ∈ values

def saTerm : Language UInt32 := sb t [.sterm, .aterm]

/-- `Sep | CR | LF` -/
def paraSep : List SentenceBreak := [.sep, .cr, .lf]

def sentenceResets (cp : UInt32) : Bool := t.sentence cp ∈ paraSep

def sentenceLiteralRules : List (BreakRule UInt32) :=
  [ join (sb t [.cr]) (sb t [.lf]),                                          -- SB3
    split (sb t paraSep) 1,                                                  -- SB4
    join 1 (sb t [.extend, .format]) ]                                       -- SB5

/-- `¬(OLetter | Upper | Lower | ParaSep | SATerm)` -/
def sb8Skipped : Language UInt32 :=
  cls fun cp => t.sentence cp ∉ [.oletter, .upper, .lower, .sep, .cr, .lf, .sterm, .aterm]

def sentenceRules : List (BreakRule UInt32) :=
  [ join (sb t [.aterm]) (sb t [.numeric]),                                  -- SB6
    join (sb t [.upper, .lower] * sb t [.aterm]) (sb t [.upper]),            -- SB7
    join (sb t [.aterm] * (sb t [.close])∗ * (sb t [.sp])∗)
      ((sb8Skipped t)∗ * sb t [.lower]),                                     -- SB8
    join (saTerm t * (sb t [.close])∗ * (sb t [.sp])∗) (sb t [.scontinue, .sterm, .aterm]),  -- SB8a
    join (saTerm t * (sb t [.close])∗) (sb t (.close :: .sp :: paraSep)),    -- SB9
    join (saTerm t * (sb t [.close])∗ * (sb t [.sp])∗) (sb t (.sp :: paraSep)),   -- SB10
    split (saTerm t * (sb t [.close])∗ * (sb t [.sp])∗ * (1 + sb t paraSep)) 1,   -- SB11
    join 1 1 ]                                                               -- SB998

def sentenceStrip (text : List UInt32) : List UInt32 :=
  strip (fun cp => sentenceIgnored (t.sentence cp)) (sentenceResets t) false text

/-- `before × after`, by the rules of sentences. -/
def sentenceJoins (before after : List UInt32) : Prop :=
  Decides (sentenceLiteralRules t)
    (Decides (sentenceRules t) False (sentenceStrip t before) (sentenceStrip t after)) before after

end Laplace.Uax29
