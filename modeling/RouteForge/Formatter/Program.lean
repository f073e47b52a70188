import RouteForge.Formatter.Basic
import RouteForge.Shell.Run

/-! Formatters by the name of a program. Some programs are always there; any other
name with a slash is a path of a script, which says in its first line what runs it. -/
namespace RouteForge.Formatter

def defaultProgram : String := "rustfmt"

def arguments (path : Path) : List (List Char) := ["--edition".toList, "2021".toList, path.chars]

inductive Interpreter where
  | shell
  | constant (status : Nat)
  deriving DecidableEq, Repr

/-- What runs a script, from the words behind the mark in its first line. -/
def interpreter? (words : List String) : Option Interpreter :=
  match words with
  | "/bin/sh" :: _ | "/bin/bash" :: _ | "/bin/dash" :: _ | "/usr/bin/sh" :: _
  | "/usr/bin/bash" :: _ | "/usr/bin/dash" :: _ => some .shell
  | ["/usr/bin/env", "sh"] | ["/usr/bin/env", "bash"] => some .shell
  | "/bin/true" :: _ | "/usr/bin/true" :: _ => some (.constant 0)
  | "/bin/false" :: _ | "/usr/bin/false" :: _ => some (.constant 1)
  | _ => none

def firstLine (text : List Char) : List String :=
  let line := text.takeWhile (· ≠ '\n')
  (Text.words ' ' (line.map (fun c => if c = '\t' then ' ' else c))).map String.ofList

/-- Runs a script over the file at a path. -/
def runScript (files : FileTree) (name text : List Char) (path : Path) : Formatting :=
  match text with
  | '#' :: '!' :: rest =>
    match interpreter? (firstLine rest) with
    | none => { files := files, ending := .error .notFound }
    | some (.constant status) => { files := files, ending := .ok (.exited status) }
    | some .shell =>
      let (s, status) := Shell.run files text name (arguments path)
      { files := s.files
        ending := .ok status
        printed := s.output
        complaints := String.ofList (Shell.textOf s.complaints)
        fatal? := s.fatal? }
  | _ => { files := files, ending := .error .notExecutable }

def runPath (files : FileTree) (program : Path) (path : Path) : Formatting :=
  match files.lookup program with
  | .error reason => { files := files, ending := .error reason }
  | .ok (.file bytes true) => runScript files program.chars (Shell.textOf bytes) path
  | .ok _ => { files := files, ending := .error .permission }

/-- The programs that are found without a path. -/
def installed : List String := ["true", "false", "echo"]

/-- An installed program by its bare name or by where it stands. -/
def installed? (name : String) : Option String :=
  installed.find? (fun p => name = p ∨ name = "/bin/" ++ p ∨ name = "/usr/bin/" ++ p)

def runInstalled (files : FileTree) (name : String) (path : Path) : Formatting :=
  match Shell.Utility.run? name files .empty ((arguments path).map String.ofList) with
  | none => { files := files, ending := .error .notFound }
  | some e => { files := e.files, ending := .ok (.exited e.status), printed := e.output }

def ofProgram (name : Option String) : Formatter := fun files path =>
  let name := name.getD defaultProgram
  match installed? name with
  | some program => runInstalled files program path
  | none =>
    if name.toList.contains '/' then runPath files (Path.ofText name) path
    else { files := files, ending := .error .notFound }

end RouteForge.Formatter
