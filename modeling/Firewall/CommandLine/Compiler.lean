import Firewall.CommandLine.Invocation

/-!
The program that compiles a firewall from interface declarations and installs it, or writes it to
a script.
-/

namespace Firewall.CommandLine.Compiler

def program : String := "tfw-ipfw"

structure Request where
  tokens : List String := []
  config : String := ""
  debug : Bool := false
  logAll : Bool := false
  stealth : Bool := false
  blackhole : Bool := false
  router : String := ""
  /-- Port lists, each with the list that it adds to, in their order; one may lack its text. -/
  ports : List (PortList × Option String) := []
  output : String := ""
  verbosity : Nat := 0
deriving DecidableEq, Repr

def grammar : Grammar where
  options :=
    [ { names := ["-h", "--help"] },
      { names := ["-c", "--config"], takesValue := true },
      { names := ["--debug"] },
      { names := ["--log-all"] },
      { names := ["--stealth"] },
      { names := ["--blackhole"] },
      { names := ["--router"], takesValue := true } ]
      ++ PortList.all.map (fun l => { names := [l.option], takesValue := true })
      ++ [ { names := ["-o", "--output"], takesValue := true },
           { names := ["-v", "--verbose"] },
           { names := ["-V", "--version"] } ]
  positionals := [{ name := "INTERFACES", many := true }]

inductive Reading
  | request (r : Request)
  | version
  | help
  | fault (f : UsageFault)
deriving DecidableEq, Repr

/-- The request with one option more. An option that lacks its text, port lists apart, counts as
one with an empty text. -/
def Request.withOption (r : Request) (name : String) (text : Option String) : Request :=
  match name with
  | "-c" => { r with config := text.getD "" }
  | "--debug" => { r with debug := true }
  | "--log-all" => { r with logAll := true }
  | "--stealth" => { r with stealth := true }
  | "--blackhole" => { r with blackhole := true }
  | "--router" => { r with router := text.getD "" }
  | "-o" => { r with output := text.getD "" }
  | "-v" => { r with verbosity := r.verbosity + 1 }
  | name => match PortList.all.find? (·.option = name) with
    | some l => { r with ports := r.ports ++ [(l, text)] }
    | none => r

def follow (fault : Option UsageFault) : List Event → Request → Reading
  | [], r => match fault with
    | some f => .fault f
    | none => .request r
  | .option "-V" _ :: _, _ => .version
  | .option "-h" _ :: _, _ => .help
  | .option name text :: rest, r => follow fault rest (r.withOption name text)
  | .positional _ words :: rest, r => follow fault rest { r with tokens := words }

def read (words : List String) : Reading :=
  let parsed := grammar.parse words
  follow parsed.fault parsed.events {}

def addPorts (ports : OpenPorts) : List (PortList × Option String) → Except ReadFault OpenPorts
  | [] => .ok ports
  | (_, none) :: _ => .error .noText
  | (l, some text) :: rest => do
    let ports ← ports.addText l text
    addPorts ports rest

/-- The port lists of a command line by the order of the lists, each in its own order. -/
def portsInOrder (r : Request) : List (PortList × Option String) :=
  PortList.all.flatMap fun l => r.ports.filter (·.1 = l)

/-- The options of the command line over those of the configuration. -/
def mergeOptions (r : Request) (base : Options) : Except ReadFault Options := do
  let ports ← addPorts base.ports (portsInOrder r)
  let router ← if r.router.isEmpty then .ok base.router
    else Malformed.lift ((Router.parse r.router).map some)
  return {
    debug := base.debug || r.debug
    logAll := base.logAll || r.logAll
    stealth := base.stealth || r.stealth
    blackhole := base.blackhole || r.blackhole
    router, ports }

variable {τ : Type}

def announce (o : Options) (b : Deployment.Bench τ) : Deployment.Bench τ :=
  let say (on : Bool) (text : String) (b : Deployment.Bench τ) : Deployment.Bench τ :=
    if on then tell text b else b
  say o.blackhole "Enabling blackhole to avoid stealth port scans"
    (say o.stealth "Enabling stealth mode to avoid detection and leakage"
      (say o.debug "Debug mode, the firewall will not be changed" b))

def setup (c : Invocation τ) (r : Request) (o : Options) : Deployment.Setup τ :=
  { options := o
    engine := Ipfw.engine c.runner { dryRun := o.debug }
    runner := c.runner
    stamp := c.stamp
    verbosity := r.verbosity }

def failDeploying (fault : DeployFault) (verbose : Bool) (b : Deployment.Bench τ) : Outcome τ :=
  match fault with
  | .declaration cause => fail cause.message verbose b
  | .policy (.numbering errors) => fail (PolicyFault.numbering errors).message verbose b
  | .engine (.rejected text) =>
    fail ("ipfw rejected the program, firewall flushed: " ++ text) verbose b
  | fault => { ending := .escaped (.deploy fault), bench := b, verbose }

def deploy (c : Invocation τ) (r : Request) (o : Options) (tokens : List String)
    (b : Deployment.Bench τ) : Outcome τ :=
  let verbose := 0 < r.verbosity
  match Deployment.run (setup c r o) tokens r.output (tell "Compiling ..." (announce o b)) with
  | (.error fault, b) => failDeploying fault verbose b
  | (.ok _, b) =>
    let b := b.allWarnings.foldl (fun b warning => tell ("Warning: " ++ warning) b) b
    let b :=
      if r.output.isEmpty then
        { b with terminal :=
            b.terminal.log .info ("firewall installed: " ++ Text.ShellWord.join tokens) }
      else tell ("Wrote " ++ r.output ++ " in " ++ c.elapsed ++ "s") b
    { ending := .exit 0, bench := b, verbose }

def withConfig (c : Invocation τ) (r : Request) (config : Config) (b : Deployment.Bench τ) :
    Outcome τ :=
  let verbose := 0 < r.verbosity
  match mergeOptions r config.options with
  | .error (.malformed cause) => fail cause.message verbose b
  | .error cause => { ending := .escaped (.read cause), bench := b, verbose }
  | .ok o => deploy c r o (config.tokens ++ r.tokens) b

def run (c : Invocation τ) : Outcome τ :=
  let b := c.bench
  match read c.words with
  | .fault f => fail f.message false b
  | .version => showVersion program b
  | .help => { ending := .exit 0, bench := b }
  | .request r =>
    if r.config.isEmpty then withConfig c r {} b
    else
      let b := tell ("Loading config from " ++ r.config ++ " ...") b
      match loadConfig c r.config b with
      | (.error fault, b) => failLoading r.config fault (0 < r.verbosity) b
      | (.ok config, b) => withConfig c r config b

end Firewall.CommandLine.Compiler
