import EtherBench.Text.Ligature
import EtherBench.Text.Wide

/-!
# Columns on a terminal

The columns of a line are not the sum over its characters: letters may join, several
characters may show as one emoji, and a selector decides how the character in front
of it is drawn. All three are told by what comes behind, so a line is measured from
its end.
-/

namespace EtherBench.Columns

open Text

/-- How the character in front is to be drawn: as an emoji, as text, or, for a
quotation mark, wide. -/
inductive Selector
  | emoji
  | text
  | wide
  deriving DecidableEq, Repr

def Selector.ofChar? : Char → Option Selector
  | '\uFE0F' => some .emoji
  | '\uFE0E' => some .text
  | '\uFE01' => some .wide
  | _ => none

/-- What the measured text begins with, where that matters to the character in front. -/
inductive Tail
  | plain
  | ligature (l : Ligature)
  | emoji (e : EmojiTail)
  deriving DecidableEq, Repr

namespace Tail

def ofChar (c : Char) : Tail :=
  match Ligature.ofChar? c, EmojiTail.ofChar? c with
  | some l, _ => .ligature l
  | none, some e => .emoji e
  | none, none => .plain

def extend? (c : Char) : Tail → Option (Int × Tail)
  | .plain => none
  | .ligature l => (l.extend? c).map fun (n, l) => (n, (l.map .ligature).getD .plain)
  | .emoji e => (e.extend? c).map fun (n, e) => (n, .emoji e)

def isJoined : Tail → Bool
  | .emoji e => e.isJoined
  | _ => false

/-- Whether the tail is the end of a ligature that selectors do not part. -/
def isLoose : Tail → Bool
  | .ligature l => l.ending.isLoose
  | _ => false

end Tail

/-- The measured text, without the selectors in front of it. -/
structure Behind where
  tail : Tail := .plain
  selectors : List Selector := []
  deriving DecidableEq, Repr

/-- The tail once its selectors had nothing to select. -/
def Behind.passed (b : Behind) : Tail :=
  if b.selectors = [] || b.tail.isLoose then b.tail else .plain

/-- One more selector in front. Where they part nothing, selectors pile up, but for
the one that asks for an emoji: it acts on the next character or not at all. -/
def Behind.push (s : Selector) (b : Behind) : Behind :=
  { tail := b.passed, selectors := s :: if b.tail.isLoose then b.selectors.erase .emoji else [] }

def isQuotationMark (c : Char) : Bool :=
  c = '\u2018' || c = '\u2019' || c = '\u201C' || c = '\u201D'

/-- What a selector makes of the character in front of it. Ideographs in a box stay
wide as text. -/
def Selector.select? (tail : Tail) (c : Char) : Selector → Option (Int × Behind)
  | .emoji =>
    if isChooser c then some (if tail.isJoined then 0 else 2, { tail := .emoji .whole }) else none
  | .text =>
    if isChooser c && isEmoji c && !(0x1F200 ≤ c.toNat && c.toNat ≤ 0x1F2FF) then some (1, {})
    else none
  | .wide => if isQuotationMark c then some (2, {}) else none

/-- The columns that a character adds in front, where no selector decides. -/
def join (c : Char) (tail : Tail) : Int × Behind :=
  if c.toNat ≤ 0xA0 then (1, {})
  else
    match tail.extend? c with
    | some (n, tail) => (n, { tail })
    | none => (columns c, { tail := .ofChar c })

def prepend (c : Char) (b : Behind) : Int × Behind :=
  match Selector.ofChar? c with
  | some s => (0, b.push s)
  | none => (b.selectors.findSome? fun s => s.select? b.tail c).getD (join c b.passed)

/-- The columns of a text, and what it begins with. -/
def measure (cs : List Char) : Int × Behind :=
  cs.foldr (fun c (n, b) => let (m, b) := prepend c b; (m + n, b)) (0, {})

/-- The columns of a line of text. -/
def width (cs : List Char) : Nat := (measure cs).1.toNat

end EtherBench.Columns
