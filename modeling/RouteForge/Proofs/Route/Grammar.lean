import RouteForge.Proofs.Text.Trim
import RouteForge.Route

/-! The grammar of routes. Every route that is read is well formed, every well-formed route has a
canonical line that reads back as it, and a line that is refused gets the first rule that it
breaks. -/
namespace RouteForge.Route

open RouteForge.Text

/-- Method and pattern, or the pattern alone. -/
def target (r : Route) : String :=
  if r.method = "" then r.pattern else r.method ++ " " ++ r.pattern

/-- The canonical line of a route. -/
def render (r : Route) : String :=
  r.target ++ " ; " ++ r.handler ++
    if r.middlewares = [] then "" else " ; " ++ ", ".intercalate r.middlewares

/-- A name that stands between separators as it is. -/
structure Name (separators : List Char) (name : String) : Prop where
  some : name ≠ ""
  trimmed : trim name.toList = name.toList
  free : ∀ c ∈ separators, c ∉ name.toList

/-- Method and pattern may hold blanks other than the space, but not at the ends of their text. -/
structure WellFormed (r : Route) : Prop where
  pattern_some : r.pattern ≠ ""
  method_free : ∀ c ∈ [' ', ';'], c ∉ r.method.toList
  pattern_free : ∀ c ∈ [' ', ';'], c ∉ r.pattern.toList
  trimmed : trim r.target.toList = r.target.toList
  handler : Name [';'] r.handler
  middlewares : ∀ name ∈ r.middlewares, Name [';', ','] name

def sections (line : String) : List (List Char) := splitOn ';' line.toList

/-- The rules of the grammar, each by the error for a line that breaks it. -/
def Breaks (line : String) : Error → Prop
  | .missingHandler => (sections line).length < 2
  | .tooManyParts => 3 < (sections line).length
  | .missingPattern => ∃ part ∈ (sections line)[0]?, ∀ c ∈ part, isBlank c = true
  | .patternTooLong => ∃ part ∈ (sections line)[0]?, 2 < (words ' ' (trim part)).length
  | .emptyHandler => ∃ part ∈ (sections line)[1]?, ∀ c ∈ part, isBlank c = true
  | .emptyMiddleware => ∃ part ∈ (sections line)[2]?, ∃ name ∈ splitOn ',' part,
      ∀ c ∈ name, isBlank c = true

/-- The order of the rules. The two rules for the first part stand beside each other. -/
def Error.rank : Error → Nat
  | missingHandler => 0
  | tooManyParts => 1
  | missingPattern | patternTooLong => 2
  | emptyHandler => 3
  | emptyMiddleware => 4

/-! ### Method and pattern -/

theorem parseTarget_eq_error_iff {part : List Char} {e : Error} :
    parseTarget part = .error e ↔
      e = .missingPattern ∧ (∀ c ∈ part, isBlank c = true) ∨
        e = .patternTooLong ∧ 2 < (words ' ' (trim part)).length := by
  rw [← words_trim_eq_nil_iff]
  unfold parseTarget
  match words ' ' (trim part) with
  | [] | [_] | [_, _] => simp [@eq_comm _ e]
  | _ :: _ :: _ :: _ => simp [@eq_comm _ e]

theorem parseTarget_eq_ok_iff {part method pattern : List Char} :
    parseTarget part = .ok (method, pattern) ↔
      method = [] ∧ words ' ' (trim part) = [pattern] ∨
        words ' ' (trim part) = [method, pattern] := by
  have solid : ∀ word ∈ words ' ' (trim part), word ≠ [] := fun _ member => (mem_words member).1
  unfold parseTarget
  match words ' ' (trim part), solid with
  | [], _ | _ :: _ :: _ :: _, _ => simp
  | [first], _ => simp [eq_comm]
  | [first, second], _ => simp

/-- The text of the words that a target has. -/
def targetText (method pattern : List Char) : List Char :=
  if method = [] then pattern else method ++ ' ' :: pattern

theorem toList_target (r : Route) :
    r.target.toList = targetText r.method.toList r.pattern.toList := by
  unfold target targetText
  by_cases none : r.method = ""
  · simp [none]
  · simp [none, String.toList_eq_nil_iff]

theorem words_targetText {method pattern : List Char} (some : pattern ≠ [])
    (left : ' ' ∉ method) (right : ' ' ∉ pattern) :
    words ' ' (targetText method pattern) =
      if method = [] then [pattern] else [method, pattern] := by
  unfold targetText words
  by_cases none : method = []
  · simp [none, splitOn_of_not_mem right, some]
  · simp [none, splitOn_append_separator, splitOn_of_not_mem left, splitOn_of_not_mem right, some]

theorem parseTarget_targetText {part method pattern : List Char} (some : pattern ≠ [])
    (left : ' ' ∉ method) (right : ' ' ∉ pattern) (text : trim part = targetText method pattern) :
    parseTarget part = .ok (method, pattern) := by
  rw [parseTarget_eq_ok_iff, text, words_targetText some left right]
  by_cases none : method = []
  · exact .inl ⟨none, if_pos none⟩
  · exact .inr (if_neg none)

/-- The text of a target has the ends of the part that it is read from. -/
theorem bare_targetText {part method pattern : List Char}
    (read : parseTarget part = .ok (method, pattern)) : Bare (targetText method pattern) := by
  obtain ⟨start, stop⟩ := bare_trim part
  have front : (trim part).head? ≠ some ' ' := fun first => by
    simpa [isBlank_space] using start ' ' first
  have back : (trim part).getLast? ≠ some ' ' := fun last => by
    simpa [isBlank_space] using stop ' ' last
  rcases parseTarget_eq_ok_iff.mp read with ⟨rfl, found⟩ | found
  · have first := head?_of_words found front
    have last := getLast?_of_words [] found back
    exact ⟨by simpa [targetText, first] using start, by simpa [targetText, last] using stop⟩
  · have first := head?_of_words found front
    have last := getLast?_of_words [method] found back
    have one : method ≠ [] := (mem_words (found ▸ List.mem_cons_self)).1
    have two : pattern ≠ [] := (mem_words (found ▸ List.mem_cons_of_mem _ List.mem_cons_self)).1
    have shown : targetText method pattern = method ++ ' ' :: pattern := if_neg one
    rw [shown]
    constructor
    · rw [List.head?_append_of_ne_nil _ one, first]
      exact start
    · rw [List.getLast?_append_of_ne_nil _ (by simp), List.getLast?_cons_of_ne_nil two, last]
      exact stop

/-! ### Whole lines -/

/-- What reading a line comes to, by the rule that ends it. -/
inductive Reading (line : String) : Except Error Route → Prop where
  | single {part} (parts : sections line = [part]) : Reading line (.error .missingHandler)
  | many {a b c d rest} (parts : sections line = a :: b :: c :: d :: rest) :
      Reading line (.error .tooManyParts)
  | untargeted {first second rest e} (parts : sections line = first :: second :: rest)
      (short : rest.length ≤ 1) (stopped : parseTarget first = .error e) : Reading line (.error e)
  | unhandled {first second rest method pattern} (parts : sections line = first :: second :: rest)
      (short : rest.length ≤ 1) (read : parseTarget first = .ok (method, pattern))
      (empty : trim second = []) : Reading line (.error .emptyHandler)
  | plain {first second method pattern} (parts : sections line = [first, second])
      (read : parseTarget first = .ok (method, pattern)) (some : trim second ≠ []) :
      Reading line (.ok ⟨String.ofList method, String.ofList pattern, String.ofList (trim second), []⟩)
  | unnamed {first second third method pattern} (parts : sections line = [first, second, third])
      (read : parseTarget first = .ok (method, pattern)) (some : trim second ≠ [])
      (empty : [] ∈ (splitOn ',' third).map trim) : Reading line (.error .emptyMiddleware)
  | wrapped {first second third method pattern} (parts : sections line = [first, second, third])
      (read : parseTarget first = .ok (method, pattern)) (some : trim second ≠ [])
      (named : [] ∉ (splitOn ',' third).map trim) :
      Reading line (.ok ⟨String.ofList method, String.ofList pattern, String.ofList (trim second),
        ((splitOn ',' third).map trim).map String.ofList⟩)

theorem parseMiddlewares_eq (part : List Char) :
    parseMiddlewares part = if [] ∈ (splitOn ',' part).map trim then .error .emptyMiddleware
      else .ok ((splitOn ',' part).map trim) := by
  have any : ((splitOn ',' part).map trim).any (·.isEmpty) = true ↔
      [] ∈ (splitOn ',' part).map trim := by
    simp [List.any_eq_true, List.isEmpty_iff]
  unfold parseMiddlewares
  simp only [any]

/-- The route of a line's parts, its middlewares being read last. -/
def compose (first second : List Char) (names : Except Error (List (List Char))) :
    Except Error Route :=
  match parseTarget first with
  | .error e => .error e
  | .ok (method, pattern) =>
    if trim second = [] then .error .emptyHandler
    else names.map fun names => ⟨String.ofList method, String.ofList pattern,
      String.ofList (trim second), names.map String.ofList⟩

theorem parse_eq_compose (line : String) : parse line = match sections line with
    | [first, second] => compose first second (.ok [])
    | [first, second, third] => compose first second (parseMiddlewares third)
    | _ :: _ :: _ => .error .tooManyParts
    | _ => .error .missingHandler := by
  unfold parse
  rw [← sections]
  match sections line with
  | [] | [_] | _ :: _ :: _ :: _ :: _ => rfl
  | [first, second] =>
    simp only [compose, List.isEmpty_iff, bind, Except.bind, pure, Except.pure]
    cases parseTarget first with
    | error e => rfl
    | ok pair => by_cases empty : trim second = [] <;> simp only [empty, if_true, if_false] <;> rfl
  | [first, second, third] =>
    simp only [compose, List.isEmpty_iff, bind, Except.bind, pure, Except.pure]
    cases parseTarget first with
    | error e => rfl
    | ok pair =>
      cases parseMiddlewares third <;> by_cases empty : trim second = [] <;>
        simp only [empty, if_true, if_false] <;> rfl

theorem parse_reading (line : String) : Reading line (parse line) := by
  have some : sections line ≠ [] := splitOn_ne_nil _ _
  rw [parse_eq_compose]
  match parts : sections line with
  | [] => exact absurd parts some
  | [_] => exact .single parts
  | _ :: _ :: _ :: _ :: _ => exact .many parts
  | [first, second] =>
    dsimp only [compose]
    cases read : parseTarget first with
    | error e => exact .untargeted parts (by simp) read
    | ok pair =>
      by_cases empty : trim second = []
      · simp only [empty, if_true]
        exact .unhandled parts (by simp) read empty
      · simp only [empty, if_false]
        exact .plain parts read empty
  | [first, second, third] =>
    dsimp only [compose]
    cases read : parseTarget first with
    | error e => exact .untargeted parts (by simp) read
    | ok pair =>
      by_cases empty : trim second = []
      · simp only [empty, if_true]
        exact .unhandled parts (by simp) read empty
      · simp only [empty, if_false, parseMiddlewares_eq]
        by_cases unnamed : [] ∈ (splitOn ',' third).map trim
        · rw [if_pos unnamed]
          exact .unnamed parts read empty unnamed
        · rw [if_neg unnamed]
          exact .wrapped parts read empty unnamed

section Rules

variable {line : String} {first second : List Char} {rest : List (List Char)}

theorem not_breaks_count (parts : sections line = first :: second :: rest) (short : rest.length ≤ 1)
    {f : Error} (low : f.rank < 2) : ¬ Breaks line f := by
  cases f with
  | missingHandler | tooManyParts =>
    simp only [Breaks, parts, List.length_cons]
    omega
  | missingPattern | patternTooLong | emptyHandler | emptyMiddleware => simp [Error.rank] at low

theorem breaks_target_iff (parts : sections line = first :: rest) {f : Error} (here : f.rank = 2) :
    Breaks line f ↔ parseTarget first = .error f := by
  rw [parseTarget_eq_error_iff]
  cases f with
  | missingPattern | patternTooLong => simp [Breaks, parts]
  | missingHandler | tooManyParts | emptyHandler | emptyMiddleware => simp [Error.rank] at here

theorem breaks_emptyHandler_iff (parts : sections line = first :: second :: rest) :
    Breaks line .emptyHandler ↔ trim second = [] := by
  rw [trim_eq_nil_iff]
  simp [Breaks, parts]

theorem breaks_emptyMiddleware_iff {third : List Char}
    (parts : sections line = [first, second, third]) :
    Breaks line .emptyMiddleware ↔ [] ∈ (splitOn ',' third).map trim := by
  simp [Breaks, parts, trim_eq_nil_iff]

theorem not_breaks_target (parts : sections line = first :: second :: rest)
    (short : rest.length ≤ 1) {method pattern : List Char}
    (read : parseTarget first = .ok (method, pattern)) {f : Error} (low : f.rank < 3) :
    ¬ Breaks line f := by
  by_cases here : f.rank = 2
  · simp [breaks_target_iff parts here, read]
  · exact not_breaks_count parts short (by omega)

theorem not_breaks_handler (parts : sections line = first :: second :: rest)
    (short : rest.length ≤ 1) {method pattern : List Char}
    (read : parseTarget first = .ok (method, pattern)) (some : trim second ≠ []) {f : Error}
    (low : f.rank < 4) : ¬ Breaks line f := by
  cases f with
  | emptyHandler => rwa [breaks_emptyHandler_iff parts]
  | emptyMiddleware => simp [Error.rank] at low
  | missingHandler | tooManyParts | missingPattern | patternTooLong =>
    exact not_breaks_target parts short read (by simp [Error.rank])

/-- A line that is refused breaks the rule of its error and none before it. -/
theorem breaks_of_error {e : Error} (stopped : parse line = .error e) :
    Breaks line e ∧ ∀ f, f.rank < e.rank → ¬ Breaks line f := by
  have reading := parse_reading line
  rw [stopped] at reading
  cases reading with
  | single parts => exact ⟨by simp [Breaks, parts], nofun⟩
  | many parts =>
    refine ⟨by simp [Breaks, parts], fun f low => ?_⟩
    cases f with
    | missingHandler => simp [Breaks, parts]
    | tooManyParts | missingPattern | patternTooLong | emptyHandler | emptyMiddleware =>
      simp [Error.rank] at low
  | untargeted parts short stopped =>
    have here : e.rank = 2 := by
      rcases parseTarget_eq_error_iff.mp stopped with ⟨rfl, -⟩ | ⟨rfl, -⟩ <;> rfl
    exact ⟨(breaks_target_iff parts here).mpr stopped,
      fun f low => not_breaks_count parts short (here ▸ low)⟩
  | unhandled parts short read empty =>
    exact ⟨(breaks_emptyHandler_iff parts).mpr empty,
      fun f low => not_breaks_target parts short read low⟩
  | unnamed parts read some empty =>
    exact ⟨(breaks_emptyMiddleware_iff parts).mpr empty,
      fun f low => not_breaks_handler parts (by simp) read some low⟩

theorem not_breaks_of_ok {r : Route} (accepted : parse line = .ok r) (f : Error) :
    ¬ Breaks line f := by
  have reading := parse_reading line
  rw [accepted] at reading
  cases reading with
  | plain parts read some =>
    cases f with
    | emptyMiddleware => simp [Breaks, parts]
    | missingHandler | tooManyParts | missingPattern | patternTooLong | emptyHandler =>
      exact not_breaks_handler parts (by simp) read some (by simp [Error.rank])
  | wrapped parts read some named =>
    cases f with
    | emptyMiddleware => rwa [breaks_emptyMiddleware_iff parts]
    | missingHandler | tooManyParts | missingPattern | patternTooLong | emptyHandler =>
      exact not_breaks_handler parts (by simp) read some (by simp [Error.rank])

/-- Only the two rules of the first part share their rank, and no part breaks both. -/
theorem eq_of_breaks {d e : Error} (same : d.rank = e.rank) (one : Breaks line d)
    (two : Breaks line e) : d = e := by
  by_cases here : d.rank = 2
  · obtain ⟨first, rest, parts⟩ := List.exists_cons_of_ne_nil (splitOn_ne_nil ';' line.toList)
    rw [breaks_target_iff parts here] at one
    rw [breaks_target_iff parts (same ▸ here), one] at two
    exact Except.error.inj two
  · cases d <;> cases e <;> simp_all [Error.rank]

theorem parse_eq_error_iff {e : Error} :
    parse line = .error e ↔ Breaks line e ∧ ∀ f, f.rank < e.rank → ¬ Breaks line f := by
  refine ⟨breaks_of_error, fun ⟨broken, earlier⟩ => ?_⟩
  cases answer : parse line with
  | ok r => exact absurd broken (not_breaks_of_ok answer e)
  | error d =>
    obtain ⟨first, before⟩ := breaks_of_error answer
    have same : d.rank = e.rank := Nat.le_antisymm
      (Nat.not_lt.mp fun low => before e low broken) (Nat.not_lt.mp fun low => earlier d low first)
    rw [eq_of_breaks same first broken]

end Rules

/-! ### Canonical lines -/

theorem name_of_part {separators part : List Char} (some : trim part ≠ [])
    (free : ∀ c ∈ separators, c ∉ part) : Name separators (String.ofList (trim part)) where
  some := by simpa using some
  trimmed := by rw [String.toList_ofList, trim_trim]
  free c member := by
    rw [String.toList_ofList]
    exact fun inside => free c member (mem_of_mem_trim inside)

theorem free_of_parseTarget {part method pattern : List Char} (clear : ';' ∉ part)
    (read : parseTarget part = .ok (method, pattern)) :
    pattern ≠ [] ∧ (∀ c ∈ [' ', ';'], c ∉ method) ∧ ∀ c ∈ [' ', ';'], c ∉ pattern := by
  have each {word : List Char} (member : word ∈ words ' ' (trim part)) :
      word ≠ [] ∧ ∀ c ∈ [' ', ';'], c ∉ word := by
    obtain ⟨some, apart, within⟩ := mem_words member
    refine ⟨some, ?_⟩
    simp only [List.forall_mem_cons, List.not_mem_nil, false_imp_iff, implies_true, and_true]
    exact ⟨apart, fun inside => clear (mem_of_mem_trim (within _ inside))⟩
  rcases parseTarget_eq_ok_iff.mp read with ⟨rfl, found⟩ | found
  · obtain ⟨some, free⟩ := each (found ▸ List.mem_cons_self)
    exact ⟨some, by simp, free⟩
  · obtain ⟨-, left⟩ := each (found ▸ List.mem_cons_self)
    obtain ⟨some, right⟩ := each (found ▸ List.mem_cons_of_mem _ List.mem_cons_self)
    exact ⟨some, left, right⟩

theorem wellFormed_of_parts {first second method pattern : List Char} {names : List (List Char)}
    (clear : ';' ∉ first ∧ ';' ∉ second) (read : parseTarget first = .ok (method, pattern))
    (some : trim second ≠ []) (each : ∀ name ∈ names, Name [';', ','] (String.ofList name)) :
    WellFormed ⟨String.ofList method, String.ofList pattern, String.ofList (trim second),
      names.map String.ofList⟩ := by
  obtain ⟨solid, left, right⟩ := free_of_parseTarget clear.1 read
  exact {
    pattern_some := by simpa using solid
    method_free := by simpa using left
    pattern_free := by simpa using right
    trimmed := by simpa [toList_target] using trim_of_bare (bare_targetText read)
    handler := name_of_part some (by simpa using clear.2)
    middlewares := by simpa using each }

/-- Every route that is read is well formed. -/
theorem wellFormed_of_parse {line : String} {r : Route} (accepted : parse line = .ok r) :
    WellFormed r := by
  have clear (part : List Char) (member : part ∈ sections line) : ';' ∉ part :=
    not_mem_of_mem_splitOn member
  have reading := parse_reading line
  rw [accepted] at reading
  cases reading with
  | plain parts read some =>
    rw [parts] at clear
    have each : ∀ name ∈ ([] : List (List Char)), Name [';', ','] (String.ofList name) := by simp
    exact wellFormed_of_parts ⟨clear _ (by simp), clear _ (by simp)⟩ read some each
  | @wrapped first second third _ _ parts read some named =>
    rw [parts] at clear
    refine wellFormed_of_parts ⟨clear _ (by simp), clear _ (by simp)⟩ read some ?_
    intro name member
    obtain ⟨part, inside, rfl⟩ := List.mem_map.mp member
    have solid : trim part ≠ [] := fun empty => named (empty ▸ member)
    refine name_of_part solid ?_
    simp only [List.forall_mem_cons, List.not_mem_nil, false_imp_iff, implies_true, and_true]
    exact ⟨fun found => clear third (by simp) (mem_of_mem_splitOn inside found),
      not_mem_of_mem_splitOn inside⟩

/-- Names behind commas and one space each are the parts between the commas, but for the space. -/
theorem splitOn_joined {names : List (List Char)} (some : names ≠ [])
    (free : ∀ name ∈ names, ',' ∉ name) :
    splitOn ',' (' ' :: [',', ' '].intercalate names) = names.map (' ' :: ·) := by
  induction names with
  | nil => exact absurd rfl some
  | cons name rest ih =>
    obtain ⟨here, others⟩ := List.forall_mem_cons.mp free
    have whole : ',' ∉ ' ' :: name := by simpa using here
    cases rest with
    | nil => rw [List.intercalate_singleton, splitOn_of_not_mem whole]; rfl
    | cons next rest =>
      have text : ' ' :: [',', ' '].intercalate (name :: next :: rest) =
          (' ' :: name) ++ ',' :: (' ' :: [',', ' '].intercalate (next :: rest)) := by
        simp [List.intercalate_cons_cons]
      rw [text, splitOn_append_separator, splitOn_of_not_mem whole, ih (by simp) others]
      rfl

/-- The list of the middlewares, if there are any. -/
def joined (r : Route) : List Char := [',', ' '].intercalate (r.middlewares.map String.toList)

theorem toList_render (r : Route) : r.render.toList =
    r.target.toList ++ ' ' :: ';' :: ' ' :: (r.handler.toList ++
      if r.middlewares = [] then [] else ' ' :: ';' :: ' ' :: r.joined) := by
  unfold render joined
  by_cases none : r.middlewares = [] <;> simp [none]

theorem WellFormed.target_free {r : Route} (valid : WellFormed r) : ';' ∉ r.target.toList := by
  have left := valid.method_free ';' (by simp)
  have right := valid.pattern_free ';' (by simp)
  rw [toList_target]
  unfold targetText
  by_cases none : r.method.toList = []
  · simpa [none] using right
  · simp [none, left, right]

theorem not_mem_intercalate_iff {c : Char} {separator : List Char} {parts : List (List Char)}
    (other : c ∉ separator) :
    c ∉ separator.intercalate parts ↔ ∀ part ∈ parts, c ∉ part := by
  induction parts with
  | nil => simp
  | cons part rest ih =>
    rw [List.forall_mem_cons, ← ih]
    cases rest with
    | nil => simp
    | cons next rest => simp [List.intercalate_cons_cons, other]

theorem WellFormed.joined_free {r : Route} (valid : WellFormed r) : ';' ∉ r.joined := by
  refine (not_mem_intercalate_iff (by simp)).mpr ?_
  intro part member
  obtain ⟨name, inside, rfl⟩ := List.mem_map.mp member
  exact (valid.middlewares name inside).free ';' (by simp)

theorem WellFormed.sections_render {r : Route} (valid : WellFormed r) :
    sections r.render = (r.target.toList ++ [' ']) ::
      if r.middlewares = [] then [' ' :: r.handler.toList]
      else [' ' :: r.handler.toList ++ [' '], ' ' :: r.joined] := by
  have target : ';' ∉ r.target.toList ++ [' '] := by simp [valid.target_free]
  have handler : ';' ∉ ' ' :: r.handler.toList := by simp [valid.handler.free ';' (by simp)]
  have joined : ';' ∉ ' ' :: r.joined := by simp [valid.joined_free]
  unfold sections
  rw [toList_render]
  by_cases none : r.middlewares = []
  · have text : r.target.toList ++ ' ' :: ';' :: ' ' :: (r.handler.toList ++ []) =
        (r.target.toList ++ [' ']) ++ ';' :: (' ' :: r.handler.toList) := by simp
    rw [if_pos none, if_pos none, text, splitOn_append_separator, splitOn_of_not_mem target,
      splitOn_of_not_mem handler]
    rfl
  · have text : r.target.toList ++
          ' ' :: ';' :: ' ' :: (r.handler.toList ++ ' ' :: ';' :: ' ' :: r.joined) =
        (r.target.toList ++ [' ']) ++ ';' ::
          ((' ' :: r.handler.toList ++ [' ']) ++ ';' :: (' ' :: r.joined)) := by simp
    have padded : ';' ∉ ' ' :: r.handler.toList ++ [' '] := by simpa using handler
    rw [if_neg none, if_neg none, text, splitOn_append_separator, splitOn_append_separator,
      splitOn_of_not_mem target, splitOn_of_not_mem padded, splitOn_of_not_mem joined]
    rfl

theorem WellFormed.parseTarget_render {r : Route} (valid : WellFormed r) :
    parseTarget (r.target.toList ++ [' ']) = .ok (r.method.toList, r.pattern.toList) := by
  have some : r.pattern.toList ≠ [] := by simpa using valid.pattern_some
  refine parseTarget_targetText some (valid.method_free ' ' (by simp))
    (valid.pattern_free ' ' (by simp)) ?_
  rw [trim_concat isBlank_space, valid.trimmed, toList_target]

theorem WellFormed.trim_middlewares {r : Route} (valid : WellFormed r) (some : r.middlewares ≠ []) :
    (splitOn ',' (' ' :: r.joined)).map trim = r.middlewares.map String.toList := by
  unfold joined
  rw [splitOn_joined (by simpa using some), List.map_map, List.map_map]
  · refine List.map_congr_left fun name member => ?_
    exact (trim_cons isBlank_space _).trans (valid.middlewares name member).trimmed
  · intro part member
    obtain ⟨name, inside, rfl⟩ := List.mem_map.mp member
    exact (valid.middlewares name inside).free ',' (by simp)

/-- The canonical line of a well-formed route reads back as the route. -/
theorem WellFormed.parse_render {r : Route} (valid : WellFormed r) : parse r.render = .ok r := by
  have handler : trim (' ' :: r.handler.toList) = r.handler.toList :=
    (trim_cons isBlank_space _).trans valid.handler.trimmed
  have solid : r.handler.toList ≠ [] := by simpa using valid.handler.some
  rw [parse_eq_compose, valid.sections_render]
  by_cases none : r.middlewares = []
  · rw [if_pos none]
    simp only [compose, valid.parseTarget_render, handler, solid, if_false, Except.map]
    simp [← none]
  · have padded : trim (' ' :: r.handler.toList ++ [' ']) = r.handler.toList :=
      (trim_concat isBlank_space _).trans handler
    have names := valid.trim_middlewares none
    have named : [] ∉ r.middlewares.map String.toList := by
      intro member
      obtain ⟨name, inside, empty⟩ := List.mem_map.mp member
      exact (valid.middlewares name inside).some (by simpa using empty)
    rw [if_neg none]
    simp only [compose, valid.parseTarget_render, padded, solid, if_false, parseMiddlewares_eq,
      names, named, Except.map]
    simp

/-- Reading and the canonical lines are inverse to each other: what is read is well formed and reads
back from its canonical line, and so does every well-formed route. A line is refused exactly by the
first rule that it breaks. -/
theorem parse_render_inverse :
    (∀ line r, parse line = .ok r → WellFormed r ∧ parse r.render = parse line) ∧
      (∀ r, WellFormed r → parse r.render = .ok r) ∧
      ∀ line e, parse line = .error e ↔
        Breaks line e ∧ ∀ f, f.rank < e.rank → ¬ Breaks line f := by
  refine ⟨fun line r accepted => ?_, fun r valid => valid.parse_render,
    fun line e => parse_eq_error_iff⟩
  have valid := wellFormed_of_parse accepted
  exact ⟨valid, valid.parse_render.trans accepted.symm⟩

end RouteForge.Route
