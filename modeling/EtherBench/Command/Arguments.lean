/-!
# Command line arguments

The first word that is no option names a command; options that hold for every
command may stand before and after it. After two dashes alone all words are
taken as they are. A word at fault ends the reading, and so does a request for
help.
-/

namespace EtherBench.Command

inductive Format
  | json
  | table
  | pretty
  | raw
  deriving DecidableEq, Repr

inductive Task
  | switch (specs : List String)
  | hub (names : List String)
  | drive (names : List String) (console : Bool) (child : List String)
  | check (specs : List String)
  | version (extended : Bool)
  | showHelp
  | showVersion
  deriving DecidableEq, Repr

structure Invocation where
  task : Task
  format : Option Format := none
  deriving DecidableEq, Repr

inductive Verb
  | switch
  | hub
  | drive
  | check
  | version
  deriving DecidableEq, Repr

def Verb.ofWord? : String → Option Verb
  | "switch" => some .switch
  | "hub" => some .hub
  | "drive" => some .drive
  | "check" => some .check
  | "version" => some .version
  | _ => none

def Format.ofWord? : String → Option Format
  | "json" => some .json
  | "table" => some .table
  | "pretty" => some .pretty
  | "raw" => some .raw
  | _ => none

inductive Setting
  | format
  | logFormat
  | logLevel
  deriving DecidableEq, Repr

def Setting.word : Setting → String
  | .format => "--format"
  | .logFormat => "--log-format"
  | .logLevel => "--log-level"

def Setting.all : List Setting := [.format, .logFormat, .logLevel]

def Setting.accepts (value : String) : Setting → Bool
  | .format => (Format.ofWord? value).isSome
  | .logFormat => ["text", "json"].contains value
  | .logLevel => ["off", "error", "warn", "info", "debug", "trace"].contains value

/-- One word of the command line, read on its own. -/
inductive Word
  | setting (s : Setting) (value : Option String)
  | flag (name : String)
  | separator
  | plain
  deriving DecidableEq, Repr

/-- A word that starts with a dash is an option, unless it is the dash alone. -/
def Word.read (s : String) : Word :=
  match s.toList with
  | ['-', '-'] => .separator
  | '-' :: '-' :: cs =>
    let name := "--" ++ String.ofList (cs.takeWhile (· != '='))
    let value :=
      match cs.dropWhile (· != '=') with
      | [] => none
      | _ :: value => some (String.ofList value)
    match Setting.all.find? (·.word = name) with
    | some option => .setting option value
    | none => .flag s
  | ['-'] => .plain
  | '-' :: c :: _ => .flag (String.ofList ['-', c])
  | _ => .plain

/-- Words before the command, or behind it: a command knows some flags, and may take
words that are no options. -/
inductive Level
  | program
  | command (flags : List String) (takesWords : Bool)
  deriving DecidableEq, Repr

/-- What has been read of one level. -/
structure Reading where
  settings : List (Setting × String) := []
  flags : List String := []
  words : List String := []
  rest : Option (List String) := none
  deriving DecidableEq, Repr

/-- Why reading stops before the end: a word is at fault, or asks for help, or for
the version. -/
inductive Stop
  | fault
  | help
  | version
  deriving DecidableEq, Repr

namespace Reading

/-- An option may be given once on a level, with one of its values. -/
def set (option : Setting) (value : String) (r : Reading) : Except Stop Reading :=
  if r.settings.any (·.1 = option) ∨ !option.accepts value then .error .fault
  else .ok { r with settings := (option, value) :: r.settings }

/-- A flag may be given once, where it is known. Help is known everywhere. -/
def raise (level : Level) (name : String) (r : Reading) : Except Stop Reading :=
  if name = "--help" ∨ name = "-h" then .error .help
  else
    match level with
    | .program => .error (if name = "--version" ∨ name = "-V" then .version else .fault)
    | .command flags _ =>
      if flags.contains name ∧ !r.flags.contains name then .ok { r with flags := name :: r.flags }
      else .error .fault

/-- Reads the words of a level, and gives those that are left for the next. -/
def scan (level : Level) : List String → Reading → Except Stop (Reading × List String)
  | [], r => .ok (r, [])
  | w :: ws, r =>
    match Word.read w, level with
    | .separator, .program => .error .fault
    | .separator, .command .. => .ok ({ r with rest := some ws }, [])
    | .plain, .program => .ok (r, w :: ws)
    | .plain, .command _ true => scan level ws { r with words := r.words ++ [w] }
    | .plain, .command _ false => .error .fault
    | .flag name, _ => do scan level ws (← r.raise level name)
    | .setting option (some value), _ => do scan level ws (← r.set option value)
    | .setting option none, _ =>
      match ws with
      | [] => .error .fault
      | value :: ws =>
        if Word.read value = .plain then do scan level ws (← r.set option value)
        else .error .fault

def setting? (option : Setting) (r : Reading) : Option String :=
  (r.settings.find? (·.1 = option)).map (·.2)

/-- Words before and behind two dashes alone; at least one is needed. -/
def arguments (r : Reading) : Except Stop (List String) :=
  match r.words ++ r.rest.getD [] with
  | [] => .error .fault
  | words => .ok words

end Reading

def Verb.level : Verb → Level
  | .drive => .command ["--no-console"] true
  | .version => .command ["--extended"] false
  | _ => .command [] true

/-- What a command makes of the words behind it. -/
def Verb.task (r : Reading) : Verb → Except Stop Task
  | .switch => r.arguments.map .switch
  | .hub => r.arguments.map .hub
  | .check => r.arguments.map .check
  | .drive =>
    match r.words, r.rest with
    | n :: names, some (program :: arguments) =>
      .ok (.drive (n :: names) (!r.flags.contains "--no-console") (program :: arguments))
    | _, _ => .error .fault
  | .version =>
    match r.words ++ r.rest.getD [] with
    | [] => .ok (.version (r.flags.contains "--extended"))
    | _ => .error .fault

/-- Help may be asked for about a command, or about help. -/
def helpTask : List String → Except Stop Invocation
  | [] => .ok { task := .showHelp }
  | [w] => if w = "help" ∨ (Verb.ofWord? w).isSome then .ok { task := .showHelp } else .error .fault
  | _ => .error .fault

/-- A command and the words behind it. An option behind the command prevails over
the same one before it. -/
def Invocation.ofWords (before : Reading) : List String → Except Stop Invocation
  | [] => .error .fault
  | word :: words =>
    match Verb.ofWord? word with
    | none => if word = "help" then helpTask words else .error .fault
    | some verb => do
      let (behind, _) ← Reading.scan verb.level words {}
      let task ← verb.task behind
      let value := (behind.setting? .format).or (before.setting? .format)
      return { task, format := value.bind Format.ofWord? }

/-- The invocation that the arguments ask for, unless a word is at fault. -/
def Invocation.parse? (args : List String) : Option Invocation :=
  match Reading.scan .program args {} >>= fun (before, words) => ofWords before words with
  | .ok invocation => some invocation
  | .error .help => some { task := .showHelp }
  | .error .version => some { task := .showVersion }
  | .error .fault => none

end EtherBench.Command
