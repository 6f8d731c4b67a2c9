import Firewall.Directory
import Firewall.Installation
import Firewall.Ipfw.Engine
import Firewall.Script.Template

/-!
Deployments. A deployment compiles declared interfaces and then either writes the firewall to a
script or installs it through an engine and configures the host.
-/

namespace Firewall

inductive DeployFault
  | declaration (cause : Malformed)
  | policy (fault : PolicyFault)
  | engine (fault : EngineFault)
  | system (fault : SystemFault)
  | service (fault : Host.UnknownService)
  | template (fault : Template.Fault)

def DeployFault.message : DeployFault → String
  | .declaration cause => cause.message
  | .policy fault => fault.message
  | .engine fault => fault.message
  | .system fault => fault.message
  | .service fault => fault.message
  | .template fault => fault.message

namespace Deployment

structure Setup (τ : Type) where
  options : Options
  engine : Engine (Terminal τ)
  runner : Runner τ
  /-- Whether the host belongs to what is compiled and configured. -/
  host : Bool := true
  stamp : Stamp
  /-- A template in place of the packaged script. -/
  template : Option Template := none
  verbosity : Nat := 0

structure Bench (τ : Type) where
  terminal : Terminal τ
  files : Directory File := []
  registry : Option Registry := none
  policy : Option Policy := none
  /-- Errors and warnings of the deployment's own steps. -/
  errors : List String := []
  warnings : List String := []
  /-- Errors and warnings that an operator is shown at the end. -/
  allErrors : List String := []
  allWarnings : List String := []

variable {τ : Type}

/-- Says something, unless a quiet run was asked for. -/
def inform (u : Setup τ) (text : String) (b : Bench τ) : Bench τ :=
  if u.verbosity = 0 then b else { b with terminal := b.terminal.log .info text }

/-- Compiles declared interfaces. A malformed token stops it before any rule is drafted. -/
def compile (u : Setup τ) (tokens : List String) (b : Bench τ) :
    Except DeployFault Policy × Bench τ :=
  let (notices, registry) := Registry.ofTokens tokens
  let b := { b with terminal := b.terminal.notes notices }
  match registry with
  | .error cause => (.error (.declaration cause), b)
  | .ok registry =>
    let c := Policy.compile registry u.options u.host (1 < u.verbosity)
    let b := { b with
      registry := some registry
      terminal := b.terminal.notes c.notices
      allErrors := b.allErrors ++ c.errors
      allWarnings := b.allWarnings ++ c.warnings }
    match c.result with
    | .error fault => (.error (.policy fault), b)
    | .ok policy => (.ok policy, { b with policy := some policy })

def install (u : Setup τ) (p : Policy) (b : Bench τ) : Except DeployFault Unit × Bench τ :=
  let outcome := Installation.install u.engine p b.terminal
  (outcome.answer.mapError .engine,
    { b with
      terminal := outcome.state
      errors := b.errors ++ outcome.errors
      allErrors := b.allErrors ++ outcome.refusals })

/-- The commands that configure the host for a policy: kernel parameters, then services. -/
def hostCommands (p : Policy) : Except Host.UnknownService (List (List String)) := do
  let services ← p.services.mapM Host.serviceCommand
  return p.sysctls.map Host.sysctlCommand ++ services

/-- Runs commands one after the other; one that ends badly is a warning. -/
def runHostCommands (runner : Runner τ) :
    List (List String) → Bench τ → Except DeployFault Unit × Bench τ
  | [], b => (.ok (), b)
  | command :: rest, b =>
    let (result, terminal) := b.terminal.run runner command
    let b := { b with terminal }
    match result with
    | .error fault => (.error (.system fault), b)
    | .ok r =>
      if r.status = 0 then runHostCommands runner rest b
      else
        let written := Text.ShellWord.join command
        let warning := written ++ ": " ++ Text.strip r.complaint
        runHostCommands runner rest { b with
          terminal := b.terminal.log .warning warning
          warnings := b.warnings ++ [warning]
          allWarnings := b.allWarnings ++ [written ++ " failed"] }

def configureHost (u : Setup τ) (p : Policy) (b : Bench τ) : Except DeployFault Unit × Bench τ :=
  match hostCommands p with
  | .error fault => (.error (.service fault), b)
  | .ok commands => runHostCommands u.runner commands b

def renderScript (stamp : Stamp) (template : Option Template) (p : Policy) (args : List String) :
    Except DeployFault String :=
  match Script.ofPolicy stamp p args with
  | .error fault => .error (.service fault)
  | .ok script =>
    match template with
    | none => .ok script.render
    | some t => (t.render script).mapError .template

/-- The file that a script is written to unless another is named. -/
def defaultOutput : String := "trustfw.sh"

/-- Writes an executable script and gives its path. -/
def writeOutput (u : Setup τ) (output text : String) (b : Bench τ) :
    Except DeployFault String × Bench τ :=
  let path := if output.isEmpty then defaultOutput else output
  match b.files.write path { text, executable := true } with
  | .error fault => (.error (.system fault), b)
  | .ok files =>
    (.ok (Path.normal path), inform u ("Wrote " ++ Path.normal path) { b with files })

/-- Compiles declared interfaces and writes a script, if an output is named, or else installs the
policy and configures the host. With debugging on the host is left as it is. -/
def run (u : Setup τ) (tokens : List String) (output : String) (b : Bench τ) :
    Except DeployFault Policy × Bench τ :=
  match compile u tokens b with
  | (.error fault, b) => (.error fault, b)
  | (.ok policy, b) =>
    if !output.isEmpty then
      match renderScript u.stamp u.template policy tokens with
      | .error fault => (.error fault, b)
      | .ok text =>
        match writeOutput u output text b with
        | (.error fault, b) => (.error fault, b)
        | (.ok _, b) => (.ok policy, b)
    else
      match install u policy b with
      | (.error fault, b) => (.error fault, b)
      | (.ok (), b) =>
        if u.options.debug then
          (.ok policy, inform u "Debug mode, host configuration left unchanged" b)
        else
          match configureHost u policy b with
          | (.error fault, b) => (.error fault, b)
          | (.ok (), b) => (.ok policy, b)

end Deployment
end Firewall
