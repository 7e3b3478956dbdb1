import Countersign.Text.Wrapped

/-!
# The command line

Options stand before the command, and each takes one value, written as the next argument or after an
equals sign. The path of the configuration may also come from the environment. Arguments are read from
the left, and the first that asks for help or for the version, or that cannot be used, decides. An
option's own value is only looked at when something after it needs to know.
-/

set_option autoImplicit false

namespace Countersign

inductive Command where
  | start
  | dumpConfig
  deriving DecidableEq, Repr

structure DaemonOptions where
  config : String
  params : String
  deriving DecidableEq, Repr

inductive HelpTopic where
  | program
  | command (c : Command)
  | help
  deriving DecidableEq, Repr

inductive Invocation where
  | run (options : DaemonOptions) (command : Command)
  | version
  | help (topic : HelpTopic)
  | misuse
  deriving DecidableEq, Repr

namespace CommandLine

inductive OptionName where
  | config
  | params
  deriving DecidableEq, Repr

def OptionName.text : OptionName → String
  | .config => "--config"
  | .params => "--params"

def Command.ofText? : String → Option Command
  | "start" => some .start
  | "dump-cfg" => some .dumpConfig
  | _ => none

/-- The options read so far. The last one may still wait for its value, or for its value to be looked
at. -/
structure Seen where
  config : Option String
  params : Option String
  pending : Option (OptionName × Option String)

namespace Seen

def nothing : Seen := ⟨none, none, none⟩

def get (s : Seen) : OptionName → Option String
  | .config => s.config
  | .params => s.params

def set (s : Seen) (value : String) : OptionName → Seen
  | .config => { s with config := some value }
  | .params => { s with params := some value }

/-- Takes a value for an option, which may have one value only, and not an empty one. -/
def take (s : Seen) (o : OptionName) (value : String) : Option Seen :=
  if (s.get o).isSome || value.isEmpty then none else some (s.set value o)

def settle (s : Seen) : Option Seen :=
  match s.pending with
  | none => some s
  | some (_, none) => none
  | some (o, some value) => take { s with pending := none } o value

end Seen

def isPlain (arg : String) : Bool := !arg.startsWith "-" || arg == "-"

def option? (arg : String) : Option (OptionName × Option String) :=
  [OptionName.config, .params].findSome? fun o =>
    if arg = o.text then some (o, none)
    else if arg.startsWith (o.text ++ "=") then
      some (o, some (String.ofList (arg.toList.drop (o.text.length + 1))))
    else none

def afterCommand (run : Invocation) (c : Command) : List String → Invocation
  | [] => run
  | ["--"] => run
  | arg :: _ => if arg = "--help" || arg.startsWith "-h" then .help (.command c) else .misuse

def topic : List String → Invocation
  | [] => .help .program
  | ["help"] => .help .help
  | [name] =>
    match Command.ofText? name with
    | some c => .help (.command c)
    | none => .misuse
  | _ => .misuse

def defaultConfig : String := "config.toml"

def defaultParams : String := "global-params.json"

/-- What to run once all arguments have been read, the environment giving the path of the configuration
if no argument did. -/
def complete (environment : Option String) (s : Seen) (c : Command) : Invocation :=
  match s.settle with
  | none => .misuse
  | some s =>
    let config := (s.config.orElse fun _ => environment).getD defaultConfig
    if config.isEmpty then .misuse else .run ⟨config, s.params.getD defaultParams⟩ c

def read (environment : Option String) (s : Seen) : List String → Invocation
  | [] => .misuse
  | arg :: rest =>
    match s.pending, isPlain arg with
    | some (o, none), true => read environment { s with pending := some (o, some arg) } rest
    | _, true =>
      if arg = "help" then topic rest
      else
        match Command.ofText? arg with
        | some c => afterCommand (complete environment s c) c rest
        | none => .misuse
    | _, false =>
      match s.settle with
      | none => .misuse
      | some s =>
        if arg = "--help" || arg.startsWith "-h" then .help .program
        else if arg = "--version" || arg.startsWith "-V" then .version
        else
          match option? arg with
          | some (o, none) => read environment { s with pending := some (o, none) } rest
          | some (o, some value) =>
            match s.take o value with
            | some s => read environment s rest
            | none => .misuse
          | none => .misuse

end CommandLine

def Invocation.parse (arguments : List String) (environment : Option String) : Invocation :=
  CommandLine.read environment .nothing arguments

namespace CommandLine

def helpWidth : Nat := 100

def described (option description : String) : List String :=
  let column := option.length + 2
  match Wrapped.lines (helpWidth - column) description with
  | [] => [option]
  | first :: rest => (option ++ "  " ++ first) :: rest.map ("".pushn ' ' column ++ ·)

end CommandLine

def HelpTopic.lines (environment : Option String) : HelpTopic → List String
  | .program =>
    ["Remote covenant signing service for staking unbonding transactions",
     "",
     "Usage: covenant-signer [OPTIONS] <COMMAND>",
     "",
     "Commands:",
     "  start     Start the signing and metrics servers",
     "  dump-cfg  Write the default config file if none exists",
     "  help      Print this message or the help of the given subcommand(s)",
     "",
     "Options:"] ++
    CommandLine.described "      --config <CONFIG>"
      ("Path to the TOML config file [env: COVENANT_SIGNER_CONFIG=" ++ environment.getD "" ++
        "] [default: " ++ CommandLine.defaultConfig ++ "]") ++
    CommandLine.described "      --params <PARAMS>"
      ("Path to the global params JSON file [default: " ++ CommandLine.defaultParams ++ "]") ++
    ["  -h, --help             Print help",
     "  -V, --version          Print version"]
  | .command .start =>
    ["Start the signing and metrics servers", "", "Usage: covenant-signer start", "", "Options:",
     "  -h, --help  Print help"]
  | .command .dumpConfig =>
    ["Write the default config file if none exists", "", "Usage: covenant-signer dump-cfg", "",
     "Options:", "  -h, --help  Print help"]
  | .help =>
    ["Print this message or the help of the given subcommand(s)", "",
     "Usage: covenant-signer help [COMMAND]...", "", "Arguments:",
     "  [COMMAND]...  Print help for the subcommand(s)"]

end Countersign
