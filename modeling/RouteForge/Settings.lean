import RouteForge.Text.Blank
import RouteForge.Text.Fields

/-! What the environment sets: how often to look for changes, which records are logged and in
which form, and the formatter. A value that is not understood counts as absent. -/
namespace RouteForge

/-- The variables that are looked at. -/
structure Environment where
  pollInterval : Option String := none
  logLevel : Option String := none
  logFormat : Option String := none
  logFilter : Option String := none
  formatter : Option String := none
  deriving DecidableEq, Repr

namespace Settings

def defaultInterval : Nat := 1000

def intervalLimit : Nat := 1 <<< 64

/-- Decimal digits, with a plus sign or without. -/
def number? (cs : List Char) : Option Nat :=
  let digits := match cs with
    | '+' :: rest => rest
    | cs => cs
  if digits ≠ [] ∧ digits.all Char.isDigit then
    some (digits.foldl (fun n c => 10 * n + (c.toNat - '0'.toNat)) 0)
  else none

/-- The time between two looks in milliseconds, which is positive and fits 64 bits. -/
def interval (value : Option String) : Nat :=
  match value.bind (fun v => number? (Text.trim v.toList)) with
  | some n => if 0 < n ∧ n < intervalLimit then n else defaultInterval
  | none => defaultInterval

inductive Form where
  | pretty
  | json
  deriving DecidableEq, Repr

def Form.name : Form → String
  | pretty => "pretty"
  | json => "json"

def form (value : Option String) : Form :=
  if value.map (fun v => v.toList.map Char.toLower) = some "json".toList then .json else .pretty

inductive Level where
  | error
  | warn
  | info
  | debug
  | trace
  deriving DecidableEq, Repr

namespace Level

/-- The more is shown, the higher. -/
def rank : Level → Nat
  | error => 1
  | warn => 2
  | info => 3
  | debug => 4
  | trace => 5

def name : Level → String
  | error => "ERROR"
  | warn => "WARN"
  | info => "INFO"
  | debug => "DEBUG"
  | trace => "TRACE"

def ofName? (name : String) : Option Level :=
  match String.ofList (name.toList.map Char.toLower) with
  | "error" => some error
  | "warn" => some warn
  | "info" => some info
  | "debug" => some debug
  | "trace" => some trace
  | _ => none

end Level

def levelName (value : Option String) : String := value.getD "warn"

def level (value : Option String) : Level := (Level.ofName? (levelName value)).getD .warn

/-- Shows records whose target starts with a text, up to a rank. -/
structure Directive where
  target : List Char
  rank : Nat
  deriving DecidableEq, Repr

/-- A rank by its level's name or number. Nothing at all has rank zero. -/
def rank? (cs : List Char) : Option Nat :=
  if cs = [] then some 1
  else if cs.map Char.toLower = "off".toList then some 0
  else match number? cs with
    | some n => if n ≤ 5 then some n else none
    | none => (Level.ofName? (String.ofList cs)).map Level.rank

/-- A rank, a target, or both with an equals sign between. A target alone shows everything. -/
def Directive.parse? (cs : List Char) : Option Directive :=
  let cs := Text.trim cs
  let target := cs.takeWhile (· ≠ '=')
  let isName (c : Char) : Bool := c.isAlphanum || c = '_' || c = ':' || c = '-'
  if target = [] ∨ !target.all isName then none
  else match cs.drop target.length with
    | [] => match rank? target with
      | some rank => some ⟨[], rank⟩
      | none => some ⟨target, 5⟩
    | _ :: level => if level = [] then some ⟨target, 5⟩ else (rank? level).map (Directive.mk target)

/-- Directives between commas; errors alone where there are none. -/
def directives? (filter : String) : Option (List Directive) :=
  match (Text.words ',' filter.toList).mapM Directive.parse? with
  | some [] => some [⟨[], 1⟩]
  | parsed => parsed

def directives (e : Environment) : List Directive :=
  ((e.logFilter.bind directives?).getD [⟨[], (level e.logLevel).rank⟩])

/-- The longest target decides, and of equal ones the last. -/
def shows (ds : List Directive) (target : String) (level : Level) : Bool :=
  let matching := ds.filter (fun d => d.target.isPrefixOf target.toList)
  let best := matching.foldl (fun best d => match best with
    | some b => if b.target.length ≤ d.target.length then some d else some b
    | none => some d) (none : Option Directive)
  best.any (fun d => level.rank ≤ d.rank)

end Settings
end RouteForge
