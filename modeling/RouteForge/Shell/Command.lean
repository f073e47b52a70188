import RouteForge.Shell.Token

/-! The commands of a shell script: simple commands with redirections, pipes, lists, choices by
pattern and by condition, groups, and loops over words. -/
namespace RouteForge.Shell

/-- The two ways out of a command. -/
inductive Channel where
  | output
  | complaints
  deriving DecidableEq, Repr

inductive Redirection where
  | input (w : Word)
  | file (channel : Channel) (fresh : Bool) (w : Word)
  /-- the first goes where the second goes by now -/
  | follow (channel target : Channel)
  deriving DecidableEq, Repr

inductive Command where
  | skip
  | simple (words : List Word) (redirections : List Redirection)
  | pipe (source sink : Command)
  | both (first second : Command)
  | either (first second : Command)
  | negation (c : Command)
  | sequence (first second : Command)
  | choice (subject : Word) (branches : List (List Word × Command))
  | condition (test yes no : Command)
  | loop (test body : Command)
  | each (name : List Char) (words : List Word) (body : Command)
  /-- variables and an `exit` do not reach beyond it -/
  | enclosed (body : Command)
  | redirected (body : Command) (redirections : List Redirection)
  deriving Repr

namespace Command

def plain? : Piece → Option (List Char)
  | .text cs false => some cs
  | _ => none

/-- The text of a word that has nothing to expand or quote. -/
def bare? : Word → Option String
  | [] => none
  | pieces => (pieces.mapM plain?).map (fun css => String.ofList css.flatten)

def isWord (name : String) : Token → Bool
  | .word w => bare? w = some name
  | _ => false

def skipLines : List Token → List Token
  | .newline :: rest => skipLines rest
  | .op ";" :: rest => skipLines rest
  | ts => ts

/-- The rest behind a word, wherever line ends stand in front of it. -/
def expect (name : String) (ts : List Token) : Option (List Token) :=
  match skipLines ts with
  | t :: rest => if isWord name t then some rest else none
  | [] => none

def redirection? : String → Option (Word → Redirection)
  | "<" => some .input
  | ">" | "1>" => some (.file .output true)
  | ">>" | "1>>" => some (.file .output false)
  | "2>" => some (.file .complaints true)
  | "2>>" => some (.file .complaints false)
  | _ => none

def following? : String → Option Redirection
  | "2>&1" => some (.follow .complaints .output)
  | "1>&2" | ">&2" => some (.follow .output .complaints)
  | ">&1" => some (.follow .output .output)
  | _ => none

/-- Words and redirections up to anything else. -/
def simpleParts : List Token → List Word × List Redirection × List Token
  | .word w :: rest =>
    let (ws, rs, rest) := simpleParts rest
    (w :: ws, rs, rest)
  | .op name :: .word w :: rest =>
    match redirection? name with
    | some make =>
      let (ws, rs, rest) := simpleParts rest
      (ws, make w :: rs, rest)
    | none =>
      match following? name with
      | some r =>
        let (ws, rs, rest) := simpleParts (.word w :: rest)
        (ws, r :: rs, rest)
      | none => ([], [], .op name :: .word w :: rest)
  | .op name :: rest =>
    match following? name with
    | some r =>
      let (ws, rs, rest) := simpleParts rest
      (ws, r :: rs, rest)
    | none => ([], [], .op name :: rest)
  | ts => ([], [], ts)

/-- A compound command with the redirections behind it. -/
def withRedirections (c : Command) (ts : List Token) : Command × List Token :=
  match simpleParts ts with
  | ([], r :: rs, rest) => (.redirected c (r :: rs), rest)
  | _ => (c, ts)

/-- Patterns between bars up to the closing parenthesis. -/
def patterns : List Token → Option (List Word × List Token)
  | .word w :: .op ")" :: rest => some ([w], rest)
  | .word w :: .op "|" :: rest => (patterns rest).map (fun (ws, rest) => (w :: ws, rest))
  | _ => none

/-- Words that end a list of commands. -/
def closers : List String := ["then", "else", "elif", "fi", "esac", "do", "done", "\x7d"]

def isCloser (t : Token) : Bool :=
  match t with
  | .op name => name = ";;" ∨ name = ")"
  | t => closers.any (isWord · t)

mutual

def list : Nat → List Token → Option (Command × List Token)
  | 0, _ => none
  | fuel + 1, ts =>
    match skipLines ts with
    | [] => some (.skip, [])
    | t :: rest =>
      if isCloser t then some (.skip, t :: rest)
      else do
        let (first, rest) ← chain fuel (t :: rest)
        match rest with
        | .newline :: _ | .op ";" :: _ | .op "&" :: _ =>
          let (second, rest) ← list fuel (match rest with
            | .op "&" :: rest => rest
            | rest => rest)
          return (.sequence first second, rest)
        | _ => return (first, rest)

def chain : Nat → List Token → Option (Command × List Token)
  | 0, _ => none
  | fuel + 1, ts => do
    let (first, rest) ← pipeline fuel ts
    chainOnto fuel first rest

def chainOnto : Nat → Command → List Token → Option (Command × List Token)
  | 0, _, _ => none
  | fuel + 1, first, ts =>
    match ts with
    | .op "&&" :: rest => do
      let (second, rest) ← pipeline fuel (skipLines rest)
      chainOnto fuel (.both first second) rest
    | .op "||" :: rest => do
      let (second, rest) ← pipeline fuel (skipLines rest)
      chainOnto fuel (.either first second) rest
    | ts => some (first, ts)

def pipeline : Nat → List Token → Option (Command × List Token)
  | 0, _ => none
  | fuel + 1, ts => do
    let (first, rest) ← match ts with
      | t :: rest =>
        if isWord "!" t then (command fuel rest).map (fun (c, rest) => (negation c, rest))
        else command fuel ts
      | [] => none
    match rest with
    | .op "|" :: rest =>
      let (second, rest) ← pipeline fuel (skipLines rest)
      return (.pipe first second, rest)
    | rest => return (first, rest)

def command : Nat → List Token → Option (Command × List Token)
  | 0, _ => none
  | fuel + 1, ts =>
    match ts with
    | .op "(" :: rest => do
      let (body, rest) ← list fuel rest
      match rest with
      | .op ")" :: rest => return withRedirections (.enclosed body) rest
      | _ => none
    | t :: rest =>
      if isWord "\x7b" t then do
        let (body, rest) ← list fuel rest
        return withRedirections body (← expect "\x7d" rest)
      else if isWord "if" t then do
        let (c, rest) ← alternatives fuel rest
        return withRedirections c rest
      else if isWord "while" t then do
        let (test, rest) ← list fuel rest
        let (body, rest) ← list fuel (← expect "do" rest)
        return withRedirections (.loop test body) (← expect "done" rest)
      else if isWord "for" t then
        match rest with
        | .word name :: rest => do
          let (words, _, rest) := simpleParts (← expect "in" rest)
          let (body, rest) ← list fuel (← expect "do" rest)
          return withRedirections (.each ((bare? name).getD "").toList words body)
            (← expect "done" rest)
        | _ => none
      else if isWord "case" t then
        match rest with
        | .word subject :: rest => do
          let (bs, rest) ← branches fuel (← expect "in" rest)
          return withRedirections (.choice subject bs) rest
        | _ => none
      else
        match simpleParts ts with
        | ([], [], _) => none
        | (words, redirections, rest) => some (.simple words redirections, rest)
    | [] => none

/-- What follows `if` or `elif`. -/
def alternatives : Nat → List Token → Option (Command × List Token)
  | 0, _ => none
  | fuel + 1, ts => do
    let (test, rest) ← list fuel ts
    let (yes, rest) ← list fuel (← expect "then" rest)
    match expect "elif" rest with
    | some rest =>
      let (no, rest) ← alternatives fuel rest
      return (.condition test yes no, rest)
    | none =>
      match expect "else" rest with
      | some rest =>
        let (no, rest) ← list fuel rest
        return (.condition test yes no, ← expect "fi" rest)
      | none => return (.condition test yes .skip, ← expect "fi" rest)

/-- The branches of a choice up to its end. -/
def branches : Nat → List Token → Option (List (List Word × Command) × List Token)
  | 0, _ => none
  | fuel + 1, ts =>
    match expect "esac" ts with
    | some rest => some ([], rest)
    | none => do
      let ts := match skipLines ts with
        | .op "(" :: rest => rest
        | rest => rest
      let (ws, rest) ← patterns ts
      let (body, rest) ← list fuel rest
      match rest with
      | .op ";;" :: rest =>
        let (more, rest) ← branches fuel rest
        return ((ws, body) :: more, rest)
      | rest => return ([(ws, body)], ← expect "esac" rest)

end

/-- The commands of a script, if it is well formed. -/
def ofScript (cs : List Char) : Option Command :=
  match list (8 * cs.length + 8) (tokens (cs.length + 1) cs) with
  | some (c, []) => some c
  | _ => none

end Command
end RouteForge.Shell
