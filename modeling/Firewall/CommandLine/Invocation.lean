import Firewall.CommandLine.Grammar
import Firewall.Config
import Firewall.Deployment
import Firewall.RateAdjuster

/-!
What a command line program is called with, and how it ends.
-/

namespace Firewall.CommandLine

structure Invocation (τ : Type) where
  words : List String
  /-- The configurations that are there to be read. -/
  configs : Directory Data := []
  files : Directory File := []
  /-- The rate profile named by the environment. -/
  profile : Option String := none
  now : TimeOfDay
  stamp : Stamp
  /-- The seconds that the run is said to have taken. -/
  elapsed : String := "0.00"
  runner : Runner τ
  world : τ

/-- A fault that a program does not report by itself. -/
inductive Escape
  | deploy (fault : DeployFault)
  | read (cause : ReadFault)
  | adjust (fault : AdjustFault)

def Escape.message : Escape → String
  | .deploy fault => fault.message
  | .read cause => cause.message
  | .adjust fault => fault.message

inductive Ending
  | exit (status : Nat)
  | escaped (fault : Escape)

structure Outcome (τ : Type) where
  ending : Ending
  bench : Deployment.Bench τ
  /-- Whether details are shown on the standard error. -/
  verbose : Bool := false

variable {τ : Type}

def Invocation.bench (c : Invocation τ) : Deployment.Bench τ :=
  { terminal := { world := c.world }, files := c.files }

def tell (text : String) (b : Deployment.Bench τ) : Deployment.Bench τ :=
  { b with terminal := b.terminal.note (.told text) }

def fail (text : String) (verbose : Bool) (b : Deployment.Bench τ) : Outcome τ :=
  { ending := .exit 1, bench := tell ("Error: " ++ text) b, verbose }

def versionText (program : String) : String :=
  program ++ ": v" ++ Script.release ++ " by Linuxfabrik GmbH, Zurich/Switzerland"

def showVersion (program : String) (b : Deployment.Bench τ) : Outcome τ :=
  { ending := .exit 0,
    bench := { b with terminal := b.terminal.note (.printed (versionText program)) } }

inductive LoadFault
  | system (fault : SystemFault)
  | read (cause : ReadFault)

/-- Reads a configuration; that of the null device is blank. -/
def loadConfig (c : Invocation τ) (path : String) (b : Deployment.Bench τ) :
    Except LoadFault Config × Deployment.Bench τ :=
  match (c.configs ++ [(Path.nullDevice, Data.null)]).read path with
  | .error fault => (.error (.system fault), b)
  | .ok data =>
    let source := Path.normal path
    let b := { b with terminal := b.terminal.log .debug ("Loaded config from " ++ source) }
    ((Config.ofFile source data).mapError .read, b)

def failLoading (path : String) (fault : LoadFault) (verbose : Bool) (b : Deployment.Bench τ) :
    Outcome τ :=
  let wording (text : String) : String := "failed to load config from " ++ path ++ ": " ++ text
  match fault with
  | .system fault =>
    if fault.isUnusablePath then
      { ending := .escaped (.deploy (.system fault)), bench := b, verbose }
    else fail (wording fault.message) verbose b
  | .read (.malformed cause) => fail (wording cause.message) verbose b
  | .read cause => { ending := .escaped (.read cause), bench := b, verbose }

end Firewall.CommandLine
