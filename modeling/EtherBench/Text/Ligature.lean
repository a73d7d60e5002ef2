import EtherBench.Text.Emoji
import EtherBench.Text.Mark

/-!
# Ligatures

Some scripts draw two letters as one. A line is measured from its end, so a
ligature is known by its last letter first, and stays open until a letter in front
of it completes it or shows that there is none.
-/

namespace EtherBench.Text

/-- The last letters of a ligature. -/
inductive Ending
  | alef
  | lamed
  | ya
  | vowelIYa
  | consonant
  | joinedConsonant
  | tone
  | orkhonI
  | coengLetter
  | vowelE
  | vowelAi
  deriving DecidableEq, Repr

/-- Whether selectors and the like may stand between the letters. -/
def Ending.isLoose : Ending → Bool
  | .vowelE | .vowelAi => false
  | _ => true

def consonants : Ranges := [(0x2D31, 0x2D65), (0x2D6F, 0x2D6F)]

/-- Where a letter opens a ligature, if one does. -/
def endings : List (Ending × Ranges) :=
  [(.alef, [(0x622, 0x623), (0x625, 0x625), (0x627, 0x627), (0x671, 0x673), (0x675, 0x675),
      (0x773, 0x774), (0x870, 0x882)]),
    (.lamed, [(0x5DC, 0x5DC)]),
    (.ya, [(0x1A10, 0x1A10)]),
    (.consonant, consonants),
    (.tone, [(0xA4FC, 0xA4FD)]),
    (.orkhonI, [(0x10C03, 0x10C03)]),
    (.coengLetter, [(0x1780, 0x1782), (0x1784, 0x1787), (0x1789, 0x178C), (0x178E, 0x1793),
      (0x1795, 0x1798), (0x179B, 0x179D), (0x17A0, 0x17A0), (0x17A2, 0x17A2), (0x17A7, 0x17A7),
      (0x17AB, 0x17AC), (0x17AF, 0x17AF)]),
    (.vowelE, [(0x16D67, 0x16D67)]),
    (.vowelAi, [(0x16D68, 0x16D68)])]

/-- In front of `ending`, a letter of `lead` adds so many columns, and `next` stays
open. Some letters need a joiner between them. -/
structure LigatureRule where
  ending : Ending
  lead : Ranges
  columns : Int := 0
  next : Option Ending := none
  needsJoiner : Bool := false

/-- A subscript consonant and a joined one stand below the letter in front, so their
own column is taken back. -/
def ligatureRules : List LigatureRule :=
  [{ ending := .alef,
     lead := [(0x644, 0x644), (0x6B5, 0x6B8), (0x76A, 0x76A), (0x8A6, 0x8A6), (0x8C7, 0x8C7)] },
   { ending := .lamed, lead := [(0x5D0, 0x5D0)], needsJoiner := true },
   { ending := .ya, lead := [(0x1A17, 0x1A17)], next := some .vowelIYa, needsJoiner := true },
   { ending := .vowelIYa, lead := [(0x1A15, 0x1A15)] },
   { ending := .consonant, lead := [(0x2D7F, 0x2D7F)], columns := 1,
     next := some .joinedConsonant },
   { ending := .consonant, lead := consonants, needsJoiner := true },
   { ending := .joinedConsonant, lead := consonants, columns := -1 },
   { ending := .tone, lead := [(0xA4F8, 0xA4FB)] },
   { ending := .orkhonI, lead := [(0x10C32, 0x10C32)], needsJoiner := true },
   { ending := .coengLetter, lead := [(0x17D2, 0x17D2)], columns := -1 },
   { ending := .vowelE, lead := [(0x16D63, 0x16D63), (0x16D69, 0x16D69)] },
   { ending := .vowelE, lead := [(0x16D67, 0x16D67)], next := some .vowelAi },
   { ending := .vowelE, lead := [(0x16D68, 0x16D68)], columns := 1, next := some .vowelE },
   { ending := .vowelAi, lead := [(0x16D63, 0x16D63)] }]

/-- Format characters that two Arabic letters join across. -/
def joinedAcross : Ranges :=
  [(0xAD, 0xAD), (0x61C, 0x61C), (0x70F, 0x70F), (0x200B, 0x200B), (0x200E, 0x200F),
    (0x202A, 0x202E), (0x2060, 0x2064), (0x206A, 0x206F), (0xFEFF, 0xFEFF), (0x1BCA0, 0x1BCA3),
    (0x1D173, 0x1D17A), (0xE0001, 0xE0001), (0xE0020, 0xE007F)]

/-- An open ligature, and whether a joiner stands in front of its letters. -/
structure Ligature where
  ending : Ending
  joined : Bool := false
  deriving DecidableEq, Repr

namespace Ligature

def ofChar? (c : Char) : Option Ligature :=
  (endings.find? fun (_, letters) => letters.has c).map fun (ending, _) => { ending }

/-- Whether `c` may stand between the letters without parting them. -/
def isCrossed (c : Char) (l : Ligature) : Bool :=
  match l.ending with
  | .alef => (isMark c && c ≠ '\u2D7F') || joinedAcross.has c
  | ending => ending.isLoose && (c = joiner || (isIgnorable c && isMark c))

/-- The columns that `c` adds in front, and the ligature that stays open, if `c` goes
on with it. -/
def extend? (c : Char) (l : Ligature) : Option (Int × Option Ligature) :=
  if l.isCrossed c then some (0, some { l with joined := l.joined || c = joiner })
  else
    let rule := ligatureRules.find? fun rule =>
      rule.ending = l.ending && rule.lead.has c && (!rule.needsJoiner || l.joined)
    rule.map fun rule => (rule.columns, rule.next.map fun ending => { ending })

end Ligature

end EtherBench.Text
