import EtherBench.Command.Arguments
import EtherBench.Interface.Basic
import EtherBench.Text.Columns
import EtherBench.Text.Quoted

/-!
# Listings of interfaces

A table is ruled all round; each column is as wide as its widest line, with one
space on both sides, and a cell may have several lines.
-/

namespace EtherBench.Command.Listing

def cells (i : Interface) : List String :=
  [toString i.index, i.name, i.mode.word, i.mode.vlanList]

def jsonMode : PortMode → String
  | .trunk vlans =>
    let list := (PortMode.trunk vlans).vlanList
    "\x7b\"tagged\":[" ++ list ++ "]\x7d"
  | .access vlan =>
    let text := toString vlan
    "\x7b\"untagged\":" ++ text ++ "\x7d"

def jsonInterface (i : Interface) : String :=
  "\x7b\"index\":" ++ toString i.index ++ ",\"name\":" ++ Quoted.json i.name ++ ",\"mode\":" ++
    jsonMode i.mode ++ "\x7d"

def json (interfaces : List Interface) : String :=
  "\x7b\"count\":" ++ toString interfaces.length ++ ",\"interfaces\":[" ++
    ",".intercalate (interfaces.map jsonInterface) ++ "]\x7d\n"

def prettyLine (i : Interface) : String :=
  s!"#{i.index} {i.name} {i.mode.word} vlan {i.mode.vlanList}\n"

section Table

def headings : List String := ["#", "NAME", "MODE", "VLANS"]

def lines (cell : String) : List (List Char) := cell.toList.splitOn '\n'

def cellWidth (cell : String) : Nat := ((lines cell).map Columns.width).foldl max 0

def widths (rows : List (List String)) : List Nat :=
  rows.foldl (fun ws row => ws.zipWith max (row.map cellWidth)) [0, 0, 0, 0]

def pad (width : Nat) (line : List Char) : String :=
  String.ofList (' ' :: (line ++ List.replicate (width - Columns.width line + 1) ' '))

/-- A rule: its left end, the stroke across a column, the crossing, and its right end. -/
def rule (left stroke cross right : String) (ws : List Nat) : String :=
  left ++ cross.intercalate (ws.map fun w => String.join (List.replicate (w + 2) stroke)) ++
    right ++ "\n"

def rowLine (ws : List Nat) (row : List (List (List Char))) (n : Nat) : String :=
  "│" ++ "┆".intercalate (ws.zipWith (fun w cell => pad w ((cell[n]?).getD [])) row) ++ "│\n"

def row (ws : List Nat) (cells : List String) : String :=
  let cells := cells.map lines
  let height := (cells.map List.length).foldl max 0
  String.join ((List.range height).map (rowLine ws cells))

def table (interfaces : List Interface) : String :=
  let rows := interfaces.map cells
  let ws := widths (headings :: rows)
  rule "┌" "─" "┬" "┐" ws ++ row ws headings ++ rule "╞" "═" "╪" "╡" ws ++
    (rule "├" "╌" "┼" "┤" ws).intercalate (rows.map (row ws)) ++ rule "└" "─" "┴" "┘" ws

end Table

def render (interfaces : List Interface) : Format → String
  | .json => json interfaces
  | .table => table interfaces
  | .pretty => String.join (interfaces.map prettyLine)
  | .raw => String.join (interfaces.map fun i => i.text ++ "\n")

end EtherBench.Command.Listing
