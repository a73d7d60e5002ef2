import EtherBench.Text.Hex
import EtherBench.Text.Mark
import EtherBench.Text.Printable

/-!
# Quoted text

Two ways to put a text between double quotes: for a reader of diagnostics, who
has to see every character that prints no ink or hides in the one before it, and
as a JSON string.
-/

namespace EtherBench.Quoted

open Text

/-- One character of a diagnostic. -/
def escape (c : Char) : List Char :=
  match c with
  | '"' => ['\\', '"']
  | '\\' => ['\\', '\\']
  | '\x00' => ['\\', '0']
  | '\t' => ['\\', 't']
  | '\n' => ['\\', 'n']
  | '\r' => ['\\', 'r']
  | c =>
    if isPrintable c && !isExtender c && !isIgnorable c then [c]
    else ['\\', 'u', '\x7b'] ++ Hex.number c.toNat ++ ['\x7d']

/-- The text as a diagnostic shows it. -/
def visible (s : String) : String :=
  String.ofList ('"' :: (s.toList.flatMap escape ++ ['"']))

/-- One character of a JSON string. -/
def escapeJson (c : Char) : List Char :=
  match c with
  | '"' => ['\\', '"']
  | '\\' => ['\\', '\\']
  | '\x08' => ['\\', 'b']
  | '\t' => ['\\', 't']
  | '\n' => ['\\', 'n']
  | '\x0c' => ['\\', 'f']
  | '\r' => ['\\', 'r']
  | c =>
    if c.toNat < 0x20 then ['\\', 'u', '0', '0'] ++ Hex.octet (UInt8.ofNat c.toNat) else [c]

/-- The text as a JSON string. -/
def json (s : String) : String :=
  String.ofList ('"' :: (s.toList.flatMap escapeJson ++ ['"']))

end EtherBench.Quoted
