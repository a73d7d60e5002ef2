import EtherBench.Interface.Basic
import EtherBench.Interface.Error
import EtherBench.Text.Decimal

/-!
# Reading interface arguments

An argument is `NAME`, `NAME[U:v]` or `NAME[T:v1,v2,…]`. A name is not empty and
has no opening bracket; VLAN numbers run from 1 to 4092, and a list names none
twice. The leftmost fault is the one reported.
-/

namespace EtherBench.Interface

def parseVlan (arg : Nat) (token : List Char) : Except InterfaceError UInt16 :=
  match Decimal.parse 4294967296 token with
  | none => .error (.notANumber arg (String.ofList token))
  | some v =>
    if v < minVlan ∨ maxVlan < v then .error (.vlanOutOfRange arg v minVlan maxVlan)
    else .ok (UInt16.ofNat v)

/-- The VLAN numbers of a list, none of them in `seen` or twice. -/
def parseVlans (arg : Nat) : List UInt16 → List (List Char) → Except InterfaceError (List UInt16)
  | _, [] => .ok []
  | seen, token :: tokens =>
    match parseVlan arg token with
    | .error e => .error e
    | .ok v =>
      if v ∈ seen then .error (.duplicateVlan arg v.toNat)
      else (parseVlans arg (v :: seen) tokens).map (v :: ·)

/-- What stands between the brackets. -/
def parseMode (arg : Nat) : List Char → Except InterfaceError PortMode
  | 'T' :: ':' :: [] => .error (.emptyVlanList arg)
  | 'T' :: ':' :: list => (parseVlans arg [] (list.splitOn ',')).map .trunk
  | 'U' :: ':' :: token => (parseVlan arg token).map .access
  | 'T' :: _ => .error (.missingColon arg)
  | 'U' :: _ => .error (.missingColon arg)
  | c :: _ => .error (.unknownMode arg (String.singleton c))
  | [] => .error (.unknownMode arg "")

def parse (arg : Nat) (s : String) : Except InterfaceError Interface :=
  if 65535 < arg then .error (.tooManyInterfaces arg Message.maxInterfaces)
  else
    let index := UInt16.ofNat arg
    let name := s.toList.takeWhile (· != '[')
    if name = [] then .error (.emptyName arg)
    else
      match s.toList.dropWhile (· != '[') with
      | [] => .ok (plain index s)
      | _ :: body =>
        match body.dropWhile (· != ']') with
        | [] => .error (.missingCloseBracket arg)
        | _ :: rest =>
          if rest ≠ [] then .error (.trailingCharacters arg (String.ofList rest))
          else
            (parseMode arg (body.takeWhile (· != ']'))).map fun mode =>
              ⟨index, String.ofList name, mode⟩

/-- Arguments from position `arg` on, up to the first that is at fault. -/
def parseFrom : Nat → List String → Except InterfaceError (List Interface)
  | _, [] => .ok []
  | arg, s :: rest =>
    match parse arg s with
    | .error e => .error e
    | .ok i => (parseFrom (arg + 1) rest).map (i :: ·)

/-- All arguments or none; their number is looked at first. -/
def parseAll (args : List String) : Except InterfaceError (List Interface) :=
  match checkedCount args.length with
  | .error e => .error e
  | .ok _ => parseFrom 1 args

end EtherBench.Interface
