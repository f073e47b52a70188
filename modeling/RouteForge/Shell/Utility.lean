import RouteForge.FileTree.Basic
import RouteForge.Shell.Arithmetic

/-! The programs that a shell script calls by name. Each is given its arguments, its input and the
files, and leaves files, output and a status. -/
namespace RouteForge.Shell

structure Effect where
  files : FileTree
  output : ByteArray := .empty
  complaint : String := ""
  status : Nat := 0

namespace Utility

def say (files : FileTree) (text : String) : Effect := { files := files, output := text.toUTF8 }

def answer (files : FileTree) (holds : Bool) : Effect :=
  { files := files, status := if holds then 0 else 1 }

def complain (files : FileTree) (text : String) : Effect :=
  { files := files, complaint := text ++ "\n", status := 1 }

/-- What a change has left, and whether it came to its end. -/
def attempt : FileTree × Except Refusal Unit → Effect
  | (files, outcome) => answer files outcome.isOk

/-- One effect after the other. The whole fails when one part does. -/
def forEach (files : FileTree) (names : List String) (run : FileTree → String → Effect) : Effect :=
  names.foldl (fun e name =>
    let next := run e.files name
    { files := next.files
      output := e.output ++ next.output
      complaint := e.complaint ++ next.complaint
      status := if e.status = 0 then next.status else e.status }) { files := files }

/-- Backslashes with a letter stand for characters. -/
def unescape : List Char → List Char
  | '\\' :: 'n' :: rest => '\n' :: unescape rest
  | '\\' :: 't' :: rest => '\t' :: unescape rest
  | '\\' :: 'r' :: rest => '\r' :: unescape rest
  | '\\' :: '\\' :: rest => '\\' :: unescape rest
  | c :: rest => c :: unescape rest
  | [] => []

def echo (files : FileTree) (arguments : List String) : Effect :=
  let text (ws : List String) : String := String.ofList (unescape (" ".intercalate ws).toList)
  match arguments with
  | "-n" :: rest => say files (text rest)
  | rest => say files (text rest ++ "\n")

/-- A format whose `%s` and `%d` are filled with arguments in their order. -/
def fill : List Char → List String → String
  | '%' :: '%' :: rest, ws => "%" ++ fill rest ws
  | '%' :: c :: rest, ws =>
    if c = 's' ∨ c = 'd' then ws.headD "" ++ fill rest (ws.drop 1)
    else String.ofList ['%', c] ++ fill rest ws
  | c :: rest, ws => String.ofList [c] ++ fill rest ws
  | [], _ => ""

def isOption (s : String) : Bool := s.startsWith "-" && s.length > 1

def options (arguments : List String) : List Char :=
  (arguments.filter isOption).flatMap (·.toList.drop 1)

def operands (arguments : List String) : List String := arguments.filter (!isOption ·)

def remove (recursive force : Bool) (files : FileTree) (name : String) : Effect :=
  let refuse (r : Refusal) := complain files ("rm: cannot remove '" ++ name ++ "': " ++ r.reason)
  match files.locate (Path.ofText name) with
  | .error .notFound => if force then { files := files } else refuse .notFound
  | .error r => refuse r
  | .ok l =>
    if files.isDirectoryAt l && !recursive then refuse .isADirectory
    else { files := files.drop l }

def removeDirectory (files : FileTree) (name : String) : Effect :=
  let refuse (r : Refusal) :=
    complain files ("rmdir: failed to remove '" ++ name ++ "': " ++ r.reason)
  match files.locate (Path.ofText name) with
  | .error r => refuse r
  | .ok l =>
    if !files.isDirectoryAt l then refuse .notADirectory
    else if files.entries.any (fun e => l.isPrefixOf e.1 && e.1 != l) then refuse .notEmpty
    else { files := files.drop l }

def count (letter : Char) (bytes : ByteArray) : Nat :=
  if letter = 'c' then bytes.size else bytes.toList.count 10

/-- Lines or octets of the input or of files, which are named behind the number. -/
def wordCount (files : FileTree) (input : ByteArray) (arguments : List String) : Effect :=
  let letter := (options arguments).headD 'l'
  match operands arguments with
  | [] => say files (toString (count letter input) ++ "\n")
  | names => forEach files names (fun files name =>
    match files.read (Path.ofText name) with
    | .ok bytes => say files (toString (count letter bytes) ++ " " ++ name ++ "\n")
    | .error _ => answer files false)

def catenate (files : FileTree) (input : ByteArray) : List String → Effect
  | [] => { files := files, output := input }
  | names => forEach files names (fun files name =>
    match files.read (Path.ofText name) with
    | .ok bytes => { files := files, output := bytes }
    | .error r => complain files ("cat: " ++ name ++ ": " ++ r.reason))

/-- A directory stands for the file of the same name in it. -/
def within (files : FileTree) (source target : String) : Path :=
  let target := Path.ofText target
  if files.isDirectory target then target.join ⟨(Path.ofText source).fileName?.getD []⟩ else target

def copy (files : FileTree) (source target : String) : Effect :=
  match files.read (Path.ofText source) with
  | .error _ => answer files false
  | .ok bytes => attempt (files.write (within files source target) bytes)

/-- Moves a file with its mode. -/
def move (files : FileTree) (source target : String) : Effect :=
  match files.locate (Path.ofText source), files.lookup (Path.ofText source) with
  | .ok l, .ok (.file bytes executable) =>
    match files.write (within files source target) bytes with
    | (written, .error _) => answer written false
    | (written, .ok ()) =>
      match written.locate (within files source target) with
      | .ok m => if m = l then answer files false
        else { files := (written.set m (.file bytes executable)).drop l }
      | .error _ => answer files false
  | _, _ => answer files false

def touch (files : FileTree) (name : String) : Effect :=
  if (files.lookup (Path.ofText name)).isOk then { files := files }
  else attempt (files.write (Path.ofText name) .empty)

/-- The mode is known only as far as it lets a file be run. -/
def changeMode (mode : String) (files : FileTree) (name : String) : Effect :=
  let executable := mode.toList.contains 'x' && !mode.toList.contains '-' ||
    mode.toList.any (fun c => c = '1' || c = '3' || c = '5' || c = '7')
  match files.locate (Path.ofText name), files.lookup (Path.ofText name) with
  | .ok l, .ok (.file bytes _) => { files := files.set l (.file bytes executable) }
  | .ok _, .ok _ => { files := files }
  | _, _ => answer files false

def compare? (op : String) (a b : Int) : Option Bool :=
  match op with
  | "-eq" => some (a = b)
  | "-ne" => some (a ≠ b)
  | "-lt" => some (a < b)
  | "-le" => some (a ≤ b)
  | "-gt" => some (b < a)
  | "-ge" => some (b ≤ a)
  | _ => none

def holds (files : FileTree) : List String → Bool
  | "!" :: rest => !holds files rest
  | ["-e", name] => (files.lookup (Path.ofText name)).isOk
  | ["-d", name] => files.isDirectory (Path.ofText name)
  | ["-f", name] => match files.lookup (Path.ofText name) with
    | .ok (.file ..) => true
    | _ => false
  | ["-s", name] => match files.lookup (Path.ofText name) with
    | .ok (.file bytes _) => bytes.size != 0
    | .ok .directory => true
    | _ => false
  | ["-x", name] => match files.lookup (Path.ofText name) with
    | .ok (.file _ executable) => executable
    | .ok .directory => true
    | _ => false
  | ["-n", text] => text ≠ ""
  | ["-z", text] => text = ""
  | [a, "=", b] => a = b
  | [a, "!=", b] => a ≠ b
  | [a, op, b] =>
    (compare? op (Arithmetic.ofText a.toList) (Arithmetic.ofText b.toList)).getD false
  | [text] => text ≠ ""
  | _ => false

/-- What a program does, by its name. -/
def run? (name : String) (files : FileTree) (input : ByteArray) (arguments : List String) :
    Option Effect :=
  match name with
  | "true" | ":" | "sleep" | "sync" => some { files := files }
  | "false" => some (answer files false)
  | "echo" => some (echo files arguments)
  | "printf" => some (match arguments with
    | [] => answer files false
    | format :: rest => say files (fill (unescape format.toList) rest))
  | "test" => some (answer files (holds files arguments))
  | "[" => some (answer files (holds files arguments.dropLast))
  | "cat" => some (catenate files input (operands arguments))
  | "wc" => some (wordCount files input arguments)
  | "rm" =>
    let letters := options arguments
    some (forEach files (operands arguments)
      (remove (letters.contains 'r' || letters.contains 'R') (letters.contains 'f')))
  | "rmdir" => some (forEach files (operands arguments) removeDirectory)
  | "mkdir" => some (forEach files (operands arguments) (fun files name =>
    if (options arguments).contains 'p' then attempt (files.makeDirectories (Path.ofText name))
    else match files.makeDirectory (Path.ofText name) with
      | .ok made => { files := made }
      | .error _ => answer files false))
  | "touch" => some (forEach files (operands arguments) touch)
  | "cp" => some (match operands arguments with
    | [source, target] => copy files source target
    | _ => answer files false)
  | "mv" => some (match operands arguments with
    | [source, target] => move files source target
    | _ => answer files false)
  | "chmod" => some (match arguments with
    | mode :: names => forEach files names (changeMode mode)
    | [] => answer files false)
  | _ => none

end Utility
end RouteForge.Shell
