import EtherBench.Message.Codec

/-!
# What can be wrong with an interface argument
-/

namespace EtherBench

/-- `arg` is the position of the argument, counted from one. -/
inductive InterfaceError
  | emptyName (arg : Nat)
  | missingCloseBracket (arg : Nat)
  | trailingCharacters (arg : Nat) (rest : String)
  | unknownMode (arg : Nat) (mode : String)
  | missingColon (arg : Nat)
  | notANumber (arg : Nat) (token : String)
  | vlanOutOfRange (arg vlan min max : Nat)
  | emptyVlanList (arg : Nat)
  | duplicateVlan (arg vlan : Nat)
  | tooManyInterfaces (count max : Nat)
  deriving DecidableEq, Repr

namespace InterfaceError

def text : InterfaceError → String
  | .emptyName arg => s!"interface {arg}: empty interface name"
  | .missingCloseBracket arg => s!"interface {arg}: '[' without matching ']'"
  | .trailingCharacters arg rest => s!"interface {arg}: unexpected characters '{rest}' after ']'"
  | .unknownMode arg mode =>
    s!"interface {arg}: unknown VLAN mode '{mode}' (expected 'T' or 'U')"
  | .missingColon arg => s!"interface {arg}: expected ':' after the VLAN mode"
  | .notANumber arg token => s!"interface {arg}: '{token}' is not a VLAN number"
  | .vlanOutOfRange arg vlan min max =>
    s!"interface {arg}: VLAN {vlan} out of range ({min}-{max})"
  | .emptyVlanList arg => s!"interface {arg}: tagged interface lists no VLANs"
  | .duplicateVlan arg vlan => s!"interface {arg}: VLAN {vlan} listed twice"
  | .tooManyInterfaces count max =>
    s!"{count} interfaces configured, at most {max} are supported"

end InterfaceError

/-- One roster has to list every interface. -/
def checkedCount (count : Nat) : Except InterfaceError UInt16 :=
  if Message.maxInterfaces < count then .error (.tooManyInterfaces count Message.maxInterfaces)
  else .ok (UInt16.ofNat count)

end EtherBench
