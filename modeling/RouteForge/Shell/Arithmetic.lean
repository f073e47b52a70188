import RouteForge.Shell.Token

/-! Whole numbers in a shell script: sums, products, parentheses and variables. -/
namespace RouteForge.Shell.Arithmetic

def skip (cs : List Char) : List Char := cs.dropWhile (fun c => c = ' ' || c = '\t' || c = '\n')

def natural (cs : List Char) : Int :=
  cs.foldl (fun n c => 10 * n + (c.toNat - '0'.toNat : Nat)) 0

/-- The number that a text is, blanks aside, and zero for anything else. -/
def ofText (cs : List Char) : Int :=
  let digits (cs : List Char) : Int := natural ((skip cs).takeWhile Char.isDigit)
  match skip cs with
  | '-' :: rest => -digits rest
  | rest => digits rest

mutual

def sum (value : List Char → List Char) : Nat → List Char → Int × List Char
  | 0, cs => (0, cs)
  | fuel + 1, cs =>
    let (n, rest) := product value fuel cs
    sumOnto value fuel n rest

def sumOnto (value : List Char → List Char) : Nat → Int → List Char → Int × List Char
  | 0, n, cs => (n, cs)
  | fuel + 1, n, cs =>
    match skip cs with
    | '+' :: rest => let (m, rest) := product value fuel rest; sumOnto value fuel (n + m) rest
    | '-' :: rest => let (m, rest) := product value fuel rest; sumOnto value fuel (n - m) rest
    | rest => (n, rest)

def product (value : List Char → List Char) : Nat → List Char → Int × List Char
  | 0, cs => (0, cs)
  | fuel + 1, cs =>
    let (n, rest) := factor value fuel cs
    productOnto value fuel n rest

def productOnto (value : List Char → List Char) : Nat → Int → List Char → Int × List Char
  | 0, n, cs => (n, cs)
  | fuel + 1, n, cs =>
    match skip cs with
    | '*' :: rest => let (m, rest) := factor value fuel rest; productOnto value fuel (n * m) rest
    | '/' :: rest => let (m, rest) := factor value fuel rest; productOnto value fuel (n.tdiv m) rest
    | '%' :: rest => let (m, rest) := factor value fuel rest; productOnto value fuel (n.tmod m) rest
    | rest => (n, rest)

def factor (value : List Char → List Char) : Nat → List Char → Int × List Char
  | 0, cs => (0, cs)
  | fuel + 1, cs =>
    match skip cs with
    | '-' :: rest => let (n, rest) := factor value fuel rest; (-n, rest)
    | '(' :: rest =>
      let (n, rest) := sum value fuel rest
      (n, (skip rest).drop 1)
    | c :: rest =>
      if c.isDigit then
        (natural ((c :: rest).takeWhile Char.isDigit), (c :: rest).dropWhile Char.isDigit)
      else if c = '$' then
        let name := rest.takeWhile (fun c => isNameChar c || isSpecial c)
        (ofText (value name), rest.drop name.length)
      else
        let name := (c :: rest).takeWhile isNameChar
        (ofText (value name), (c :: rest).drop (max 1 name.length))
    | [] => (0, [])

end

/-- The value of an expression over the texts of variables. -/
def evaluate (value : List Char → List Char) (cs : List Char) : Int :=
  (sum value (8 * cs.length + 8) cs).1

end RouteForge.Shell.Arithmetic
