import EtherBench.Command.Exit
import EtherBench.Command.Listing
import EtherBench.Hub
import EtherBench.Interface.Parse
import EtherBench.Link.Limits
import EtherBench.Switch.React

/-!
# The program

A task either prints something and is done, or is a tool that answers a message
stream until the stream ends.
-/

namespace EtherBench.Command

/-- A tool that waits for its stream. -/
structure Session where
  State : Type
  tool : Tool State
  state : State
  count : UInt16
  name : String

/-- What an invocation comes to before any input is read. -/
inductive Start
  | done (output : String)
  | failed (f : Failure)
  | session (s : Session)

def name : String := "framelab"

def version : String := "0.1.0"

def extendedVersion : String :=
  String.join
    [s!"name: {name}\n", s!"version: {version}\n", "target: unknown\n", "target_os: linux\n",
      "target_arch: unknown\n", "git_hash: unknown\n",
      s!"max_interfaces: {Message.maxInterfaces}\n",
      s!"learning_table: {LearningTable.capacity} entries\n", "raw_links: true\n"]

def help : String :=
  String.join
    ["Ethernet switching lab: learning switch, hub and interface driver\n\n",
      s!"Usage: {name} [OPTIONS] <COMMAND>\n\n",
      "Commands:\n",
      "  switch   Run the VLAN-aware learning switch on stdin/stdout\n",
      "  hub      Run a hub that repeats every frame to every other interface\n",
      "  drive    Attach network interfaces to a child program through the multiplexer\n",
      "  check    Validate interface specifications and print them\n",
      "  version  Show version information\n",
      "  help     Print this message or the help of the given subcommand(s)\n\n",
      "Options:\n",
      "      --format <FORMAT>      Output format [possible values: json, table, pretty, raw]\n",
      "      --log-format <FORMAT>  Log output format (stderr) [default: text]\n",
      "      --log-level <LEVEL>    Minimum log level (stderr) [default: info]\n",
      "  -h, --help                 Print help\n",
      "  -V, --version              Print version\n"]

def startSwitch (specs : List String) : Start :=
  match (Interface.parseAll specs).bind Switch.ofInterfaces with
  | .error e => .failed (.ofInterface "invalid interface" e)
  | .ok s => .session ⟨Switch, Switch.react, s, s.count, "switch"⟩

/-- A hub knows its interfaces by number only, but none may be without a name. -/
def startHub (names : List String) : Start :=
  match names.findIdx? String.isEmpty with
  | some i => .failed (.ofInterface "invalid interface" (.emptyName (i + 1)))
  | none =>
    match Hub.ofCount names.length with
    | .error e => .failed (.ofInterface "invalid interface" e)
    | .ok h => .session ⟨Hub, Hub.react, h, h.count, "hub"⟩

/-- The kernel has not let this program at a packet socket. -/
def socketDenied (name : String) : LinkError :=
  .openFailed name "open packet socket" ⟨.permissionDenied, "Operation not permitted (os error 1)"⟩

/-- Links are opened in order; without packet sockets the first one fails, if not for its name. -/
def startDrive (names : List String) : Start :=
  let name := names.headD ""
  match Link.encodeName name with
  | .error e => .failed (.ofLink "open interface" e)
  | .ok _ => .failed (.ofLink "open interface" (socketDenied name))

def startCheck (specs : List String) (format : Format) : Start :=
  match Interface.parseAll specs with
  | .error e => .failed (.ofInterface "invalid interface" e)
  | .ok interfaces => .done (Listing.render interfaces format)

def start (fallback : Format) (args : List String) : Start :=
  match Invocation.parse? args with
  | none => .failed ⟨Exit.badOption, s!"invalid arguments\n\n{help}"⟩
  | some invocation =>
    match invocation.task with
    | .switch specs => startSwitch specs
    | .hub names => startHub names
    | .drive names _ _ => startDrive names
    | .check specs => startCheck specs (invocation.format.getD fallback)
    | .version false => .done s!"{name} {version}\n"
    | .version true => .done extendedVersion
    | .showVersion => .done s!"{name} {version}\n"
    | .showHelp => .done help

structure Outcome where
  code : Nat
  output : Bytes
  diagnostics : String
  deriving DecidableEq, Repr

namespace Outcome

def ofFailure (output : Bytes) (f : Failure) : Outcome :=
  ⟨f.code, output, s!"error: {f.message}\n"⟩

end Outcome

/-- The whole program, on an input that ends and with an output that is no terminal. -/
def run (args : List String) (input : Source) : Outcome :=
  match start .json args with
  | .done output => ⟨Exit.success, Bytes.ofText output, ""⟩
  | .failed f => .ofFailure [] f
  | .session s =>
    match (Dispatcher.ofSource input s.count).run s.tool.handler (s.state, {}) with
    | (.ok (), _, _, out) => ⟨Exit.success, out.data.toList, ""⟩
    | (.error e, _, _, out) => .ofFailure out.data.toList (.ofMessage s.name e)

end EtherBench.Command
