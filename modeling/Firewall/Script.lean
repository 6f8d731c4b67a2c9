import Firewall.Ipfw.Words
import Firewall.Policy
import Firewall.Text.Lines
import Firewall.Text.ShellWord

/-!
Firewalls as shell scripts. A script carries out the commands of a policy by itself: it flushes the
filter, configures the host, adds pipes, queues and rules, and switches the sets on.
-/

namespace Firewall

open Text

/-- When and by whom a script was made. -/
structure Stamp where
  time : String
  user : String
deriving DecidableEq, Repr

structure Script where
  version : String
  stamp : Stamp
  args : String
  warnings : List String
  flush : List String
  pipes : List String
  queues : List String
  disableSets : List String
  rules : List String
  enableSets : List String
  /-- Commands for kernel parameters, each with its comment. -/
  sysctls : List (String × String)
  services : List String

namespace Script

def release : String := "2.1.0"

def joinAll (commands : List (List String)) : List String := commands.map ShellWord.join

/-- The script of a policy; `args` are the words that its firewall was asked for with. -/
def ofPolicy (stamp : Stamp) (p : Policy) (args : List String) :
    Except Host.UnknownService Script := do
  let services ← p.services.mapM Host.serviceCommand
  return {
    version := release
    stamp
    args := ShellWord.join args
    warnings := p.warnings
    flush := joinAll Ipfw.flushCommands
    pipes := joinAll (p.program.pipes.map Ipfw.pipeWords)
    queues := joinAll (p.program.queues.map Ipfw.queueWords)
    disableSets := joinAll (p.program.setStates.map fun s => Ipfw.setWords s.set false)
    rules := joinAll (p.program.installOrder.map Ipfw.ruleWords)
    enableSets :=
      joinAll ((p.program.setStates.filter (·.enabled)).map fun s => Ipfw.setWords s.set true)
    sysctls := p.sysctls.map fun s => (ShellWord.join (Host.sysctlCommand s), s.comment)
    services := joinAll services }

def filterLine (words : String) : String := "\"$IPFW\" -q " ++ words

def headLines (s : Script) : List String :=
  ["#!/bin/sh", "#", "# This is automatically generated file. DO NOT MODIFY !", "#",
    "# trustfw v" ++ s.version, "#",
    "# Generated " ++ s.stamp.time ++ " by " ++ s.stamp.user, "#",
    "# Interfaces: " ++ (if s.args.isEmpty then "(none)" else s.args)]
    ++ s.warnings.map ("# Warning: " ++ ·)

def sysctlLines (s : Script) : List String :=
  s.sysctls.flatMap fun (command, comment) =>
    if comment.isEmpty then [command] else ["# " ++ comment, command]

/-- A blank line and a section, where the section is not empty. -/
def section? (title lines : List String) : List String :=
  if lines.isEmpty then [] else "" :: title ++ lines

def bodyLines (s : Script) : List String :=
  ["", "IPFW=\"$\x7bIPFW:-/sbin/ipfw\x7d\"", "",
    "# Remove any rules previously defined and flush the dynamic tables"]
    ++ s.flush.map filterLine
    ++ [""] ++ s.sysctlLines
    ++ ["", "# Pipes"] ++ s.pipes.map filterLine
    ++ section? ["# Queues"] (s.queues.map filterLine)
    ++ ["", "# Keep toggleable sets off while the rules go in"] ++ s.disableSets.map filterLine
    ++ ["", "# Rules, default-deny set first"] ++ s.rules.map filterLine
    ++ section? [] (s.enableSets.map filterLine)
    ++ section? [] s.services
    ++ ["", "logger \"firewall installed: " ++ s.args ++ "\""]

def render (s : Script) : String := unlines (s.headLines ++ s.bodyLines)

/-- The value of a variable of a template: a text, or a list as it is quoted in a message. -/
def valueOf? (s : Script) (name : String) : Option String :=
  let listed (xs : List String) : String := "[" ++ ", ".intercalate xs ++ "]"
  let quoted (xs : List String) : String := listed (xs.map Text.Quoted.quote)
  match name with
  | "version" => some s.version
  | "timestamp" => some s.stamp.time
  | "user" => some s.stamp.user
  | "args" => some s.args
  | "warnings" => some (quoted s.warnings)
  | "flush" => some (quoted s.flush)
  | "pipes" => some (quoted s.pipes)
  | "queues" => some (quoted s.queues)
  | "disable_sets" => some (quoted s.disableSets)
  | "rules" => some (quoted s.rules)
  | "enable_sets" => some (quoted s.enableSets)
  | "services" => some (quoted s.services)
  | "sysctls" =>
    some (listed (s.sysctls.map fun (command, comment) =>
      "(" ++ Text.Quoted.quote command ++ ", " ++ Text.Quoted.quote comment ++ ")"))
  | _ => none

end Script
end Firewall
