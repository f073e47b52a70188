import Mathlib.Data.List.Forall2
import Mathlib.Tactic.SplitIfs
import RouteForge.Text.Quoted

/-! Reading quoted literals. Between its quotes a literal is a row of pieces, each of which spells one
character: as itself, by a backslash and a letter, or by its number in braces. No piece is the beginning
of another, so a reader that ends each piece where it spells a character can go wrong nowhere, and what
was quoted is read back. -/
namespace RouteForge.Text

/-! ### Pieces -/

/-- The character that a backslash and one more stand for. -/
def shorthand? : Char → Option Char
  | 't' => some '\t'
  | 'r' => some '\r'
  | 'n' => some '\n'
  | '\'' => some '\''
  | '"' => some '"'
  | '\\' => some '\\'
  | '0' => some '\x00'
  | _ => none

/-- The value of a hexadecimal digit. -/
def hexValue? (c : Char) : Option Nat :=
  if '0' ≤ c ∧ c ≤ '9' then some (c.toNat - '0'.toNat)
  else if 'a' ≤ c ∧ c ≤ 'f' then some (c.toNat - 'a'.toNat + 10)
  else if 'A' ≤ c ∧ c ≤ 'F' then some (c.toNat - 'A'.toNat + 10)
  else none

/-- The number that digits write behind those that have been read. -/
def hexNumber? (read : Nat) (digits : List Char) : Option Nat :=
  digits.foldlM (fun n c => (hexValue? c).map (16 * n + ·)) read

/-- Characters that do not stand for themselves in a literal. -/
def marks : List Char := ['"', '\\', '\n', '\r']

/-- How a piece of a literal spells a character. A number has one to six digits. -/
inductive Spelling : List Char → Char → Prop where
  | plain {c} (solid : c ∉ marks) : Spelling [c] c
  | short {e c} (stands : shorthand? e = some c) : Spelling ['\\', e] c
  | number {digits c} (some_digits : digits ≠ []) (few : digits.length ≤ 6)
      (value : hexNumber? 0 digits = some c.toNat) :
      Spelling ('\\' :: 'u' :: '{' :: (digits ++ ['}'])) c

def charOf? (n : Nat) : Option Char :=
  if (Char.ofNat n).toNat = n then some (Char.ofNat n) else none

/-- The character that a piece spells. -/
def spelled? : List Char → Option Char
  | [c] => if c ∈ marks then none else some c
  | ['\\', e] => shorthand? e
  | '\\' :: 'u' :: '{' :: more =>
    let digits := more.dropLast
    if more.getLast? = some '}' ∧ digits ≠ [] ∧ digits.length ≤ 6 then
      (hexNumber? 0 digits).bind charOf?
    else none
  | _ => none

theorem charOf?_eq_some_iff {n : Nat} {c : Char} : charOf? n = some c ↔ n = c.toNat := by
  unfold charOf?
  constructor
  · intro found
    split at found
    next exact_ =>
      cases found
      exact exact_.symm
    next => cases found
  · rintro rfl
    simp

theorem spelled?_eq_some_iff {p : List Char} {c : Char} : spelled? p = some c ↔ Spelling p c := by
  constructor
  · intro found
    unfold spelled? at found
    split at found
    next d =>
      split at found
      next => cases found
      next solid =>
        cases found
        exact .plain solid
    next e => exact .short found
    next more =>
      dsimp only at found
      split at found
      next closed =>
        obtain ⟨last, some_digits, few⟩ := closed
        obtain ⟨n, number, char⟩ := Option.bind_eq_some_iff.mp found
        rw [charOf?_eq_some_iff.mp char] at number
        have whole : more.dropLast ++ ['}'] = more :=
          List.dropLast_append_getLast? '}' (Option.mem_def.mpr last)
        rw [← whole]
        exact .number some_digits few number
      next => cases found
    next => cases found
  · intro spelling
    cases spelling with
    | plain solid => simp [spelled?, solid]
    | short stands => simpa [spelled?] using stands
    | number some_digits few value =>
      have char : charOf? c.toNat = some c := charOf?_eq_some_iff.mpr rfl
      rw [spelled?]
      simp [some_digits, few, value, char]

/-! ### Digits -/

theorem hexNumber?_append (read : Nat) (front back : List Char) :
    hexNumber? read (front ++ back) = (hexNumber? read front).bind (hexNumber? · back) := by
  unfold hexNumber?
  rw [List.foldlM_append]
  rfl

theorem hexValue?_of_mem {read n : Nat} {digits : List Char}
    (value : hexNumber? read digits = some n) : ∀ d ∈ digits, ∃ v, hexValue? d = some v := by
  induction digits generalizing read with
  | nil => simp
  | cons d digits ih =>
    unfold hexNumber? at value
    rw [List.foldlM_cons] at value
    obtain ⟨next, here, behind⟩ := Option.bind_eq_some_iff.mp value
    obtain ⟨v, digit, -⟩ := Option.map_eq_some_iff.mp here
    exact List.forall_mem_cons.mpr ⟨⟨v, digit⟩, ih behind⟩

/-- Digits lie in the visible part of ASCII, clear of the braces. -/
theorem range_of_hexValue? {d : Char} {v : Nat} (digit : hexValue? d = some v) :
    0x30 ≤ d.toNat ∧ d.toNat ≤ 0x66 := by
  unfold hexValue? at digit
  split_ifs at digit with numeral small capital
  · exact ⟨numeral.1, Nat.le_trans numeral.2 (by decide)⟩
  · exact ⟨Nat.le_trans (by decide) small.1, small.2⟩
  · exact ⟨Nat.le_trans (by decide) capital.1, Nat.le_trans capital.2 (by decide)⟩

theorem hexValue?_digitChar : ∀ d < 16, hexValue? (Nat.digitChar d) = some d := by decide

theorem hexNumber?_hexDigits (n : Nat) : hexNumber? 0 (hexDigits n) = some n := by
  unfold hexDigits
  induction n using Nat.strongRecOn with
  | _ n ih =>
    rw [Nat.toDigits_eq_if (by decide)]
    split
    next small => simp [hexNumber?, hexValue?_digitChar n small]
    next large =>
      have last : n % 16 < 16 := Nat.mod_lt n (by decide)
      rw [hexNumber?_append, ih (n / 16) (by omega)]
      simp only [Option.bind_some, hexNumber?, List.foldlM_cons, List.foldlM_nil,
        hexValue?_digitChar _ last, Option.map_some, Option.bind_eq_bind, Option.pure_def]
      rw [Nat.div_add_mod]

theorem length_hexDigits_le (c : Char) : (hexDigits c.toNat).length ≤ 6 := by
  have bound : c.toNat < 16 ^ 6 := by
    rcases c.valid with low | ⟨-, high⟩
    · exact Nat.lt_trans low (by decide)
    · exact Nat.lt_trans high (by decide)
  unfold hexDigits
  exact (Nat.length_toDigits_le_iff (by decide) (by decide)).mpr bound

/-- An escape spells its character, whichever characters are special. -/
theorem spelling_escape (special : Char → Bool) (c : Char) : Spelling (escape special c) c := by
  unfold escape
  split_ifs with null tab back feed mark slash
  · exact .short (congrArg some null.symm)
  · exact .short (congrArg some tab.symm)
  · exact .short (congrArg some back.symm)
  · exact .short (congrArg some feed.symm)
  · exact .short (congrArg some mark.symm)
  · exact .short (congrArg some slash.symm)
  · exact .number Nat.toDigits_ne_nil (length_hexDigits_le c) (hexNumber?_hexDigits _)
  · exact .plain (by simp [marks, mark, slash, feed, back])

/-! ### Literals -/

/-- Reads the inside of a literal up to its closing quote, and gives what is behind it. What has been
read of a piece waits until the piece spells a character. -/
def readInside? (begun : List Char) : List Char → Option (List Char × List Char)
  | [] => none
  | c :: text =>
    if begun = [] ∧ c = '"' then some ([], text)
    else match spelled? (begun ++ [c]) with
      | some x => (readInside? [] text).map fun (cs, rest) => (x :: cs, rest)
      | none => readInside? (begun ++ [c]) text

/-- Reads a literal off the front of a text. -/
def readLiteral? : List Char → Option (List Char × List Char)
  | '"' :: text => readInside? [] text
  | _ => none

theorem Spelling.ne_nil {p : List Char} {c : Char} (spelling : Spelling p c) : p ≠ [] := by
  cases spelling <;> exact List.cons_ne_nil _ _

theorem Spelling.head_ne_quote {p : List Char} {c x : Char} (spelling : Spelling (x :: p) c) :
    x ≠ '"' := by
  rintro rfl
  cases spelling with
  | plain solid => exact solid (List.mem_cons_self)

/-- No piece is the beginning of another. -/
theorem Spelling.begun {front back : List Char} {c x : Char}
    (spelling : Spelling (front ++ x :: back) c) (some_front : front ≠ []) :
    spelled? front = none := by
  cases found : spelled? front with
  | none => rfl
  | some y =>
    have early := spelled?_eq_some_iff.mp found
    exfalso
    generalize whole : front ++ x :: back = p at spelling
    cases early with
    | plain solid =>
      cases spelling with
      | plain => cases back <;> cases whole
      | short | number =>
        obtain ⟨rfl, -⟩ := List.cons.inj whole
        simp [marks] at solid
    | short stands =>
      cases spelling with
      | plain => cases whole
      | short => cases whole
      | number =>
        obtain ⟨-, whole⟩ := List.cons.inj whole
        obtain ⟨rfl, -⟩ := List.cons.inj whole
        cases stands
    | @number digits =>
      cases spelling with
      | plain => cases whole
      | short => cases whole
      | @number others _ _ _ value =>
        have inside : digits ++ '}' :: x :: back = others ++ ['}'] := by simpa using whole
        -- The brace that ends the shorter number would be a digit of the longer one.
        have member : '}' ∈ others := by
          have parts := congrArg List.dropLast inside
          rw [List.dropLast_concat] at parts
          rw [← parts]
          simp
        obtain ⟨v, digit⟩ := hexValue?_of_mem value '}' member
        cases digit

/-- A piece that has been begun is read to its end. -/
theorem readInside?_piece {begun rest : List Char} {c : Char}
    (spelling : Spelling (begun ++ rest) c) (some_rest : rest ≠ []) (text : List Char) :
    readInside? begun (rest ++ text) =
      (readInside? [] text).map fun (cs, rest) => (c :: cs, rest) := by
  induction rest generalizing begun with
  | nil => exact absurd rfl some_rest
  | cons x rest ih =>
    have open_piece : ¬ (begun = [] ∧ x = '"') := by
      rintro ⟨rfl, rfl⟩
      exact spelling.head_ne_quote rfl
    rw [List.cons_append, readInside?, if_neg open_piece]
    cases rest with
    | nil => rw [spelled?_eq_some_iff.mpr spelling, List.nil_append]
    | cons y rest =>
      rw [List.append_cons] at spelling
      rw [spelling.begun (by simp)]
      exact ih spelling (List.cons_ne_nil y rest)

theorem readInside?_pieces {pieces : List (List Char)} {cs : List Char}
    (spellings : List.Forall₂ Spelling pieces cs) (rest : List Char) :
    readInside? [] (pieces.flatten ++ '"' :: rest) = some (cs, rest) := by
  induction spellings with
  | nil => rfl
  | @cons p c pieces cs first _ ih =>
    have fresh : Spelling ([] ++ p) c := first
    rw [List.flatten_cons, List.append_assoc, readInside?_piece fresh first.ne_nil, ih]
    rfl

theorem exists_pieces {begun text cs rest : List Char}
    (read : readInside? begun text = some (cs, rest)) :
    ∃ pieces, begun ++ text = pieces.flatten ++ '"' :: rest ∧ List.Forall₂ Spelling pieces cs := by
  induction text generalizing begun cs with
  | nil => cases read
  | cons c text ih =>
    rw [readInside?] at read
    split at read
    next closed =>
      obtain ⟨rfl, rfl⟩ := closed
      cases read
      exact ⟨[], rfl, .nil⟩
    next =>
      split at read
      next x found =>
        obtain ⟨⟨others, behind⟩, inner, same⟩ := Option.map_eq_some_iff.mp read
        cases same
        obtain ⟨pieces, whole, spellings⟩ := ih inner
        refine ⟨(begun ++ [c]) :: pieces, ?_, .cons (spelled?_eq_some_iff.mp found) spellings⟩
        rw [List.flatten_cons, List.append_assoc, ← whole]
        simp
      next =>
        obtain ⟨pieces, whole, spellings⟩ := ih read
        exact ⟨pieces, by rw [← whole]; simp, spellings⟩

/-- A literal is read exactly where pieces between two quotes spell what is read. -/
theorem readLiteral?_eq_some_iff {text cs rest : List Char} : readLiteral? text = some (cs, rest) ↔
    ∃ pieces, text = '"' :: (pieces.flatten ++ '"' :: rest) ∧
      List.Forall₂ Spelling pieces cs := by
  constructor
  · intro read
    unfold readLiteral? at read
    split at read
    next inside =>
      obtain ⟨pieces, whole, spellings⟩ := exists_pieces read
      exact ⟨pieces, congrArg _ whole, spellings⟩
    next => cases read
  · rintro ⟨pieces, rfl, spellings⟩
    exact readInside?_pieces spellings rest

theorem spellings_escape (special : Char → Bool) (cs : List Char) :
    List.Forall₂ Spelling (cs.map (escape special)) cs := by
  rw [List.forall₂_map_left_iff, List.forall₂_same]
  exact fun c _ => spelling_escape special c

/-- What was quoted is read back, whatever follows. -/
theorem readLiteral?_quote (special : Char → Bool) (cs rest : List Char) :
    readLiteral? (quote special cs ++ rest) = some (cs, rest) := by
  refine readLiteral?_eq_some_iff.mpr ⟨_, ?_, spellings_escape special cs⟩
  simp [quote, List.flatMap_def]

/-- Different texts have different literals, even where different characters are special. -/
theorem quote_injective {special other : Char → Bool} {cs ds : List Char}
    (same : quote special cs = quote other ds) : cs = ds := by
  have left := readLiteral?_quote special cs []
  have right := readLiteral?_quote other ds []
  rw [same, right] at left
  exact (Prod.mk.inj (Option.some.inj left)).1.symm

-- Digits and letters behind an escape do not become part of it.
example : readLiteral? (quote (· = '\x1b') ['\x00', '1', '\\', 'n', '\x1b', 'f']) =
    some (['\x00', '1', '\\', 'n', '\x1b', 'f'], []) := by decide

/-! ### Characters of a literal -/

/-- What stands in a text without a backslash in front of it. -/
def unescaped : List Char → List Char
  | '\\' :: _ :: text => unescaped text
  | c :: text => c :: unescaped text
  | [] => []

theorem unescaped_cons {c : Char} (solid : c ≠ '\\') (text : List Char) :
    unescaped (c :: text) = c :: unescaped text := by
  rw [unescaped]
  rintro d rest same -
  exact solid same

theorem unescaped_append {front : List Char} (free : '\\' ∉ front) (text : List Char) :
    unescaped (front ++ text) = front ++ unescaped text := by
  induction front with
  | nil => rfl
  | cons c front ih =>
    rw [List.mem_cons, not_or] at free
    rw [List.cons_append, unescaped_cons (Ne.symm free.1), ih free.2, List.cons_append]

/-- Of an escape nothing is left but the digits in their braces. -/
theorem Spelling.unescaped_append {p : List Char} {c : Char} (spelling : Spelling p c)
    (text : List Char) : ∃ front, unescaped (p ++ text) = front ++ unescaped text ∧
      '"' ∉ front ∧ '\\' ∉ front := by
  cases spelling with
  | plain solid =>
    have apart : c ≠ '"' ∧ c ≠ '\\' := by
      simp only [marks, List.mem_cons, not_or] at solid
      exact ⟨solid.1, solid.2.1⟩
    exact ⟨[c], unescaped_cons apart.2 text, by simpa using apart.1.symm,
      by simpa using apart.2.symm⟩
  | short => exact ⟨[], rfl, by simp, by simp⟩
  | @number digits _ _ _ value =>
    have apart (m : Char) (none : hexValue? m = none) : m ∉ digits := by
      intro member
      obtain ⟨v, digit⟩ := hexValue?_of_mem value m member
      rw [none] at digit
      cases digit
    have free : '\\' ∉ '{' :: (digits ++ ['}']) := by simp [apart '\\' rfl]
    refine ⟨'{' :: (digits ++ ['}']), ?_, by simp [apart '"' rfl], free⟩
    exact Text.unescaped_append free text

/-- Every quote and every backslash inside a literal belongs to an escape. -/
theorem unescaped_pieces {pieces : List (List Char)} {cs : List Char}
    (spellings : List.Forall₂ Spelling pieces cs) :
    '"' ∉ unescaped pieces.flatten ∧ '\\' ∉ unescaped pieces.flatten := by
  induction spellings with
  | nil => simp [unescaped]
  | @cons p c pieces cs first _ ih =>
    obtain ⟨front, same, no_quote, no_slash⟩ := first.unescaped_append pieces.flatten
    rw [List.flatten_cons, same]
    simp [no_quote, no_slash, ih]

/-- The visible part of ASCII, from the space to the tilde. -/
def Visible (c : Char) : Prop := 0x20 ≤ c.toNat ∧ c.toNat < 0x7f

instance : DecidablePred Visible := fun c =>
  inferInstanceAs (Decidable (0x20 ≤ c.toNat ∧ c.toNat < 0x7f))

theorem visible_of_mem_hexDigits {n : Nat} {d : Char} (digit : d ∈ hexDigits n) : Visible d := by
  obtain ⟨v, value⟩ := hexValue?_of_mem (hexNumber?_hexDigits n) d digit
  have range := range_of_hexValue? value
  unfold Visible
  omega

/-- A character of an escape is the character itself, which then is not special, or visible. -/
theorem mem_escape {special : Char → Bool} {c x : Char} (member : x ∈ escape special c) :
    x = c ∧ special c = false ∧ c ∉ marks ∨ Visible x := by
  have visible (row : List Char) (inside : x ∈ row) (all : ∀ y ∈ row, Visible y) : Visible x :=
    all x inside
  unfold escape at member
  split_ifs at member with null tab back feed mark slash hidden
  · exact .inr (visible _ member (by simp [Visible]))
  · exact .inr (visible _ member (by simp [Visible]))
  · exact .inr (visible _ member (by simp [Visible]))
  · exact .inr (visible _ member (by simp [Visible]))
  · exact .inr (visible _ member (by simp [Visible]))
  · exact .inr (visible _ member (by simp [Visible]))
  · rw [List.mem_append, List.mem_append] at member
    rcases member with (opening | digit) | closing
    · exact .inr (visible _ opening (by simp [Visible]))
    · exact .inr (visible_of_mem_hexDigits digit)
    · exact .inr (visible _ closing (by simp [Visible]))
  · rw [List.mem_singleton] at member
    exact .inl ⟨member, by simpa using hidden, by simp [marks, mark, slash, feed, back]⟩

/-- A literal holds no line break, and of the special characters at most visible ones. -/
theorem mem_quote {special : Char → Bool} {cs : List Char} {x : Char}
    (member : x ∈ quote special cs) : x ≠ '\n' ∧ x ≠ '\r' ∧ (special x = true → Visible x) := by
  have seen (visible : Visible x) : x ≠ '\n' ∧ x ≠ '\r' ∧ (special x = true → Visible x) := by
    refine ⟨?_, ?_, fun _ => visible⟩
    · rintro rfl
      exact absurd visible (by decide)
    · rintro rfl
      exact absurd visible (by decide)
  unfold quote at member
  rw [List.cons_append, List.mem_cons, List.mem_append, List.mem_singleton] at member
  rcases member with rfl | inside | rfl
  · exact seen (by decide)
  · obtain ⟨c, -, inside⟩ := List.mem_flatMap.mp inside
    rcases mem_escape inside with ⟨rfl, plain, solid⟩ | visible
    · simp only [marks, List.mem_cons, not_or] at solid
      exact ⟨solid.2.2.1, solid.2.2.2.1, fun hidden => by simp [plain] at hidden⟩
    · exact seen visible
  · exact seen (by decide)

end RouteForge.Text
