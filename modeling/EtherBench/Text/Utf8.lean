import EtherBench.Bytes

/-!
# Lenient UTF-8

Operator text arrives as octets that may not be UTF-8. Every maximal run of
octets that starts a character but does not finish it, and every octet that
starts none, reads as one replacement character.
-/

namespace EtherBench.Utf8

/-- Between characters, or inside one: then the next octet lies in `low..high`,
and `more` continuation octets are owed after it. -/
inductive State
  | between
  | inside (more : Nat) (code : Nat) (low high : UInt8)

def replacement : Char := '\uFFFD'

/-- An octet where a character may start. -/
def lead (b : UInt8) : List Char × State :=
  if b ≤ 0x7F then ([Char.ofNat b.toNat], .between)
  else if b < 0xC2 then ([replacement], .between)
  else if b ≤ 0xDF then ([], .inside 0 (b.toNat - 0xC0) 0x80 0xBF)
  else if b = 0xE0 then ([], .inside 1 0x0 0xA0 0xBF)
  else if b = 0xED then ([], .inside 1 0xD 0x80 0x9F)
  else if b ≤ 0xEF then ([], .inside 1 (b.toNat - 0xE0) 0x80 0xBF)
  else if b = 0xF0 then ([], .inside 2 0x0 0x90 0xBF)
  else if b ≤ 0xF3 then ([], .inside 2 (b.toNat - 0xF0) 0x80 0xBF)
  else if b = 0xF4 then ([], .inside 2 0x4 0x80 0x8F)
  else ([replacement], .between)

/-- The characters that one more octet completes, and where it leads. -/
def feed (s : State) (b : UInt8) : List Char × State :=
  match s with
  | .between => lead b
  | .inside more code low high =>
    if low ≤ b ∧ b ≤ high then
      let code := code * 64 + (b.toNat - 0x80)
      match more with
      | 0 => ([Char.ofNat code], .between)
      | more + 1 => ([], .inside more code 0x80 0xBF)
    else
      let (cs, s) := lead b
      (replacement :: cs, s)

def decodeFrom : State → Bytes → List Char
  | .between, [] => []
  | .inside .., [] => [replacement]
  | s, b :: rest =>
    let (cs, s) := feed s b
    cs ++ decodeFrom s rest

def decode (b : Bytes) : String := String.ofList (decodeFrom .between b)

end EtherBench.Utf8
