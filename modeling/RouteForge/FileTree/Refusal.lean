/-! Why the system refuses to open, read, write or run something, in its own words. -/
namespace RouteForge

inductive Refusal where
  | notFound
  | inputOutput
  | notExecutable
  | permission
  | alreadyThere
  | notADirectory
  | isADirectory
  | tooLarge
  | noSpace
  | readOnly
  | nameTooLong
  | notEmpty
  | nulInPath
  deriving DecidableEq, Repr

namespace Refusal

def reason : Refusal → String
  | notFound => "No such file or directory"
  | inputOutput => "Input/output error"
  | notExecutable => "Exec format error"
  | permission => "Permission denied"
  | alreadyThere => "File exists"
  | notADirectory => "Not a directory"
  | isADirectory => "Is a directory"
  | tooLarge => "File too large"
  | noSpace => "No space left on device"
  | readOnly => "Read-only file system"
  | nameTooLong => "File name too long"
  | notEmpty => "Directory not empty"
  | nulInPath => "file name contained an unexpected NUL byte"

/-- A path with NUL never reaches the system, so that refusal has no number. -/
def number? : Refusal → Option Nat
  | notFound => some 2
  | inputOutput => some 5
  | notExecutable => some 8
  | permission => some 13
  | alreadyThere => some 17
  | notADirectory => some 20
  | isADirectory => some 21
  | tooLarge => some 27
  | noSpace => some 28
  | readOnly => some 30
  | nameTooLong => some 36
  | notEmpty => some 39
  | nulInPath => none

def message (r : Refusal) : String :=
  match r.number? with
  | some n => r.reason ++ " (os error " ++ toString n ++ ")"
  | none => r.reason

end Refusal

end RouteForge
