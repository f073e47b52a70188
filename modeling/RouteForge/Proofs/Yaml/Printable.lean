import RouteForge.Yaml.Writer

/-! The characters of written scalars. Whatever a text holds, what is written for it has none but
printable characters: where it has others it goes into double quotes, which escape them. -/
namespace RouteForge

/-! ### Numbers -/

namespace Number

/-- The characters that numbers are written with. -/
def isNumeral (c : Char) : Bool := "0123456789-.efain".toList.contains c

theorem isNumeral_of_mem_toDigits (n : Nat) : ∀ c ∈ Nat.toDigits 10 n, isNumeral c = true := by
  have digit : ∀ k < 10, isNumeral (Nat.digitChar k) = true := by decide +kernel
  induction n using Nat.strongRecOn with
  | _ n ih =>
    rw [Nat.toDigits_eq_if (by decide)]
    split
    next small => exact List.forall_mem_singleton.mpr (digit n small)
    next large =>
      exact List.forall_mem_append.mpr
        ⟨ih (n / 10) (by omega), List.forall_mem_singleton.mpr (digit _ (by omega))⟩

theorem isNumeral_of_mem_toString (n : Int) : ∀ c ∈ (toString n).toList, isNumeral c = true := by
  rw [Int.toString_eq_repr, Int.repr_eq_if]
  split
  · rw [Nat.toList_repr]
    exact isNumeral_of_mem_toDigits _
  · rw [String.toList_append, Nat.toList_repr]
    exact List.forall_mem_append.mpr ⟨List.all_eq_true.mp (by decide +kernel),
      isNumeral_of_mem_toDigits _⟩

theorem isNumeral_of_mem_text (x : Binary64) : ∀ c ∈ x.text, isNumeral c = true := by
  have sign : ∀ c ∈ (if x.negative then ['-'] else []), isNumeral c = true := by
    split <;> exact List.all_eq_true.mp (by decide +kernel)
  have zeros (n : Nat) : ∀ c ∈ List.replicate n '0', isNumeral c = true := by
    intro c member
    rw [List.eq_of_mem_replicate member]
    decide +kernel
  have digits := isNumeral_of_mem_toDigits x.shortest.digits
  have front (n : Nat) : ∀ c ∈ (Nat.toDigits 10 x.shortest.digits).take n, isNumeral c = true :=
    fun c member => digits c (List.mem_of_mem_take member)
  have back (n : Nat) : ∀ c ∈ (Nat.toDigits 10 x.shortest.digits).drop n, isNumeral c = true :=
    fun c member => digits c (List.mem_of_mem_drop member)
  have point : isNumeral '.' = true := by decide +kernel
  unfold Binary64.text
  dsimp only
  split
  · exact List.all_eq_true.mp (by decide +kernel)
  split
  · exact List.forall_mem_append.mpr ⟨sign, List.all_eq_true.mp (by decide +kernel)⟩
  split
  · exact List.forall_mem_append.mpr ⟨sign, List.all_eq_true.mp (by decide +kernel)⟩
  refine List.forall_mem_append.mpr ⟨sign, ?_⟩
  split
  · exact List.forall_mem_append.mpr
      ⟨List.forall_mem_append.mpr ⟨digits, zeros _⟩, List.all_eq_true.mp (by decide +kernel)⟩
  split
  · exact List.forall_mem_append.mpr ⟨front _, List.forall_mem_cons.mpr ⟨point, back _⟩⟩
  split
  · exact List.forall_mem_append.mpr
      ⟨List.forall_mem_append.mpr ⟨List.all_eq_true.mp (by decide +kernel), zeros _⟩, digits⟩
  · refine List.forall_mem_append.mpr ⟨List.forall_mem_append.mpr ⟨front 1, ?_⟩,
      List.forall_mem_cons.mpr ⟨by decide +kernel, isNumeral_of_mem_toString _⟩⟩
    split
    · exact nofun
    · exact List.forall_mem_cons.mpr ⟨point, back 1⟩

end Number

namespace Yaml

open RouteForge.Number (isNumeral)

theorem Number.isNumeral_of_mem_text (n : Number) : ∀ c ∈ n.text.toList, isNumeral c = true := by
  cases n with
  | integer n => exact RouteForge.Number.isNumeral_of_mem_toString n
  | float x =>
    unfold Number.text
    rw [String.toList_ofList]
    exact RouteForge.Number.isNumeral_of_mem_text x

namespace Writer

/-! ### Texts -/

def Printable (cs : List Char) : Prop := ∀ c ∈ cs, isPrintable c = true

instance (cs : List Char) : Decidable (Printable cs) :=
  decidable_of_iff (cs.all isPrintable = true) List.all_eq_true

variable {cs ds : List Char} {c : Char} {n : Nat} {fresh : Bool} {K P : String → Prop}

theorem Printable.append (left : Printable cs) (right : Printable ds) : Printable (cs ++ ds) :=
  List.forall_mem_append.mpr ⟨left, right⟩

theorem Printable.cons (first : isPrintable c = true) (rest : Printable cs) : Printable (c :: cs) :=
  List.forall_mem_cons.mpr ⟨first, rest⟩

theorem isPrintable_of_isNumeral (numeral : isNumeral c = true) : isPrintable c = true := by
  have every : "0123456789-.efain".toList.all isPrintable = true := by decide +kernel
  exact List.all_eq_true.mp every c (List.contains_iff_mem.mp numeral)

theorem printable_spaces (n : Nat) : Printable (spaces n) := by
  intro c member
  rw [List.eq_of_mem_replicate member]
  decide

theorem mem_margin (member : c ∈ if fresh then spaces n else []) : c = ' ' := by
  split at member
  · exact List.eq_of_mem_replicate member
  · cases member

theorem mem_indentLines (member : c ∈ indentLines n fresh cs) : c ∈ cs ∨ c = ' ' := by
  induction cs generalizing fresh with
  | nil => cases member
  | cons d cs ih =>
    unfold indentLines at member
    split at member
    · rcases List.mem_cons.mp member with rfl | member
      · exact .inl List.mem_cons_self
      · exact (ih member).imp_left (List.mem_cons_of_mem d)
    · rcases List.mem_append.mp member with margin | member
      · exact .inr (mem_margin margin)
      · rcases List.mem_cons.mp member with rfl | member
        · exact .inl List.mem_cons_self
        · exact (ih member).imp_left (List.mem_cons_of_mem d)

theorem mem_singleChars (member : c ∈ singleChars n fresh cs) : c ∈ cs ∨ c = ' ' ∨ c = '\'' := by
  induction cs generalizing fresh with
  | nil =>
    rcases List.mem_append.mp member with margin | quote
    · exact .inr (.inl (mem_margin margin))
    · exact .inr (.inr (List.mem_singleton.mp quote))
  | cons d cs ih =>
    have later {f : Bool} (member : c ∈ singleChars n f cs) : c ∈ d :: cs ∨ c = ' ' ∨ c = '\'' :=
      (ih member).imp_left (List.mem_cons_of_mem d)
    unfold singleChars at member
    split at member
    · rcases List.mem_append.mp member with doubled | member
      · split at doubled
        next broken =>
          have same : d = '\n' := by simpa using (Bool.and_eq_true_iff.mp broken).2
          rw [List.mem_singleton.mp doubled, same]
          exact .inl List.mem_cons_self
        next => cases doubled
      · rcases List.mem_cons.mp member with rfl | member
        · exact .inl List.mem_cons_self
        · exact later member
    · rcases List.mem_append.mp member with member | member
      · rcases List.mem_append.mp member with margin | member
        · exact .inr (.inl (mem_margin margin))
        · split at member
          · exact .inr (.inr (by simpa using member))
          · rw [List.mem_singleton.mp member]
            exact .inl List.mem_cons_self
      · exact later member

/-- Printable, and no line feed. -/
def isInline (c : Char) : Bool := isPrintable c && c != '\n'

theorem isInline_of_mem_hexDigits (width n : Nat) : ∀ c ∈ hexDigits width n, isInline c = true := by
  have digit : ∀ k < 16, isInline (Nat.digitChar k).toUpper = true := by decide
  have digits (m : Nat) : ∀ c ∈ (Nat.toDigits 16 m).map Char.toUpper, isInline c = true := by
    induction m using Nat.strongRecOn with
    | _ m ih =>
      rw [Nat.toDigits_eq_if (by decide)]
      split
      next small => exact List.forall_mem_singleton.mpr (digit m small)
      next large =>
        rw [List.map_append]
        exact List.forall_mem_append.mpr
          ⟨ih (m / 16) (by omega), List.forall_mem_singleton.mpr (digit _ (by omega))⟩
  refine List.forall_mem_append.mpr ⟨?_, digits n⟩
  intro c member
  rw [List.eq_of_mem_replicate member]
  decide

theorem isInline_of_mem_doubleChar (c : Char) : ∀ d ∈ doubleChar c, isInline d = true := by
  have escape {d : Char} {ds : List Char} (name : isInline d = true)
      (digits : ∀ d ∈ ds, isInline d = true) : ∀ e ∈ '\\' :: d :: ds, isInline e = true :=
    List.forall_mem_cons.mpr ⟨by decide, List.forall_mem_cons.mpr ⟨name, digits⟩⟩
  unfold doubleChar
  split
  next name escaped =>
    refine escape ?_ nofun
    unfold escapeName? at escaped
    split at escaped <;> cases escaped <;> decide
  next plain =>
    split
    next printable =>
      have other : c ≠ '\n' := by
        rintro rfl
        cases plain
      exact List.forall_mem_singleton.mpr (by simp [isInline, printable, other])
    next =>
      split
      · exact escape (by decide) (isInline_of_mem_hexDigits _ _)
      · split <;> exact escape (by decide) (isInline_of_mem_hexDigits _ _)

theorem isInline_of_mem_double (cs : List Char) : ∀ c ∈ double cs, isInline c = true := by
  refine List.forall_mem_append.mpr ⟨List.forall_mem_cons.mpr ⟨by decide, ?_⟩,
    List.forall_mem_singleton.mpr (by decide)⟩
  intro c member
  obtain ⟨d, -, inside⟩ := List.mem_flatMap.mp member
  exact isInline_of_mem_doubleChar d c inside

theorem isInline_of_mem_literalHints (cs : List Char) :
    ∀ c ∈ literalHints cs, isInline c = true := by
  rw [← List.all_eq_true]
  unfold literalHints
  rw [List.all_append, Bool.and_eq_true]
  refine ⟨by split <;> decide, ?_⟩
  split
  · decide
  · split
    · decide
    · split <;> decide

/-- The ways to write a text, each with what it takes. Only a literal block has several lines. -/
inductive Styled (indent : Nat) (compact : Bool) (cs : List Char) : List Char → Prop where
  | plain (unbroken : '\n' ∉ cs) (held : (traits cs).plain = true) : Styled indent compact cs cs
  | single (unbroken : '\n' ∉ cs) (held : (traits cs).single = true) :
      Styled indent compact cs (single indent cs)
  | double : Styled indent compact cs (double cs)
  | literal (broken : '\n' ∈ cs) (block : compact = false) (held : (traits cs).literal = true) :
      Styled indent compact cs (literal indent cs)

theorem text_styled (indent : Nat) (compact : Bool) (s : String) :
    Styled indent compact s.toList (text indent compact s) := by
  unfold text
  dsimp only
  split
  · exact .double
  · split
    next broken =>
      split
      next held =>
        simp only [Bool.and_eq_true, Bool.not_eq_true'] at held
        exact .literal (List.contains_iff_mem.mp broken) held.2 held.1
      next => exact .double
    next unbroken =>
      have unbroken : '\n' ∉ s.toList := fun member =>
        unbroken (List.contains_iff_mem.mpr member)
      split
      · split
        next held => exact .single unbroken held
        next => exact .double
      next held =>
        simp only [Bool.or_eq_true, not_or] at held
        exact .plain unbroken (by simpa using held.2)

theorem printable_of_traits
    (held : (traits cs).plain = true ∨ (traits cs).single = true ∨ (traits cs).literal = true) :
    Printable cs := by
  unfold traits at held
  cases cs with
  | nil => exact nofun
  | cons c cs =>
    simp only [List.isEmpty_cons, Bool.false_eq_true, if_false] at held
    intro d member
    cases printable : isPrintable d with
    | true => rfl
    | false =>
      have unquotable : (c :: cs).any (!isPrintable ·) = true :=
        List.any_eq_true.mpr ⟨d, member, by simp [printable]⟩
      simp [unquotable] at held

theorem Printable.of_inline (each : ∀ c ∈ cs, isInline c = true) : Printable cs :=
  fun c member => (Bool.and_eq_true_iff.mp (each c member)).1

theorem printable_text (indent : Nat) (compact : Bool) (s : String) :
    Printable (text indent compact s) := by
  have styled := text_styled indent compact s
  generalize text indent compact s = written at styled
  cases styled with
  | plain _ held => exact printable_of_traits (.inl held)
  | single _ held =>
    refine .cons (by decide) fun c member => ?_
    rcases mem_singleChars member with inside | rfl | rfl
    · exact printable_of_traits (.inr (.inl held)) c inside
    · decide
    · decide
  | double => exact .of_inline (isInline_of_mem_double _)
  | literal _ _ held =>
    refine .append (.cons (by decide) (.of_inline (isInline_of_mem_literalHints _)))
      (.cons (by decide) fun c member => ?_)
    rcases mem_indentLines member with inside | rfl
    · exact printable_of_traits (.inr (.inr held)) c inside
    · decide

/-! ### Values -/

mutual

/-- No value in it has a tag, all keys in it are texts with the one property, and all other texts in
it have the other. -/
def Texts (K P : String → Prop) : Value → Prop
  | .null | .bool _ | .number _ => True
  | .string s => P s
  | .sequence items => ItemTexts K P items
  | .mapping entries => EntriesTexts K P entries
  | .tagged .. => False

def ItemTexts (K P : String → Prop) : List Value → Prop
  | [] => True
  | v :: rest => Texts K P v ∧ ItemTexts K P rest

def EntriesTexts (K P : String → Prop) : List (Value × Value) → Prop
  | [] => True
  | e :: rest => EntryTexts K P e ∧ EntriesTexts K P rest

def EntryTexts (K P : String → Prop) : Value × Value → Prop
  | (k, v) => (∃ s, k = .string s ∧ K s) ∧ Texts K P v

end

theorem printable_atom (indent : Nat) (compact : Bool) (v : Value) :
    Printable ((atom? indent compact v).getD []) := by
  unfold atom?
  split
  · decide +kernel
  next b => cases b <;> decide +kernel
  next n => exact fun c member => isPrintable_of_isNumeral (n.isNumeral_of_mem_text c member)
  · exact printable_text indent compact _
  · decide
  · decide
  · exact nofun

theorem printable_endLine (printable : Printable cs) : Printable (endLine cs) := by
  unfold endLine
  split
  · exact printable
  · exact .append printable (by decide)

mutual

theorem printable_inline : ∀ (indent : Nat) {v : Value}, Texts K P v → Printable (inline indent v)
  | indent, .sequence (x :: xs), held =>
    .cons (by decide) (printable_items (indent + 2) (x :: xs) held)
  | indent, .mapping (e :: es), held =>
    .cons (by decide) (printable_entries (indent + 2) (e :: es) held)
  | indent, .sequence [], _ | indent, .mapping [], _ | indent, .null, _ | indent, .bool _, _
  | indent, .number _, _ | indent, .string _, _ =>
    .cons (by decide) (printable_endLine (printable_atom (indent + 2) false _))

theorem printable_under : ∀ (forItems forEntries : Nat) {v : Value}, Texts K P v →
    Printable (under forItems forEntries v)
  | forItems, _, .sequence (x :: xs), held =>
    .append (.cons (by decide) (printable_spaces forItems))
      (printable_items forItems (x :: xs) held)
  | _, forEntries, .mapping (e :: es), held =>
    .append (.cons (by decide) (printable_spaces forEntries))
      (printable_entries forEntries (e :: es) held)
  | _, forEntries, .sequence [], _ | _, forEntries, .mapping [], _ | _, forEntries, .null, _
  | _, forEntries, .bool _, _ | _, forEntries, .number _, _ | _, forEntries, .string _, _ =>
    .cons (by decide) (printable_endLine (printable_atom forEntries false _))

theorem printable_items : ∀ (indent : Nat) (xs : List Value), ItemTexts K P xs →
    Printable (items indent xs)
  | _, [], _ => nofun
  | indent, [x], held => .cons (by decide) (printable_inline indent held.1)
  | indent, x :: y :: ys, held =>
    .append (.append (.cons (by decide) (printable_inline indent held.1))
      (printable_spaces indent)) (printable_items indent (y :: ys) held.2)

theorem printable_entries : ∀ (indent : Nat) (es : List (Value × Value)), EntriesTexts K P es →
    Printable (entries indent es)
  | _, [], _ => nofun
  | indent, [_], held => printable_entry indent held.1
  | indent, _ :: f :: fs, held =>
    .append (.append (printable_entry indent held.1) (printable_spaces indent))
      (printable_entries indent (f :: fs) held.2)

theorem printable_entry : ∀ (indent : Nat) {e : Value × Value}, EntryTexts K P e →
    Printable (entry indent e)
  | indent, (k, v), held => by
    obtain ⟨⟨s, rfl, -⟩, below⟩ := held
    unfold entry
    split
    · exact .append (printable_atom (indent + 2) true (.string s))
        (.cons (by decide) (printable_under indent (indent + 2) below))
    · have key : Printable (inline indent (.string s)) :=
        .cons (by decide) (printable_endLine (printable_atom (indent + 2) false _))
      exact .append (.append (.cons (by decide) key) (printable_spaces indent))
        (.cons (by decide) (printable_inline indent below))

end

end Writer

/-- Whatever is written is printable. -/
theorem printable_write {K P : String → Prop} {v : Value} (held : Writer.Texts K P v) :
    Writer.Printable (write v).toList := by
  unfold write
  split
  · rw [String.toList_ofList]
    exact Writer.printable_items 0 _ held
  · rw [String.toList_ofList]
    exact Writer.printable_entries 0 _ held
  · rw [String.toList_ofList]
    exact fun c member => Writer.printable_under 0 0 held c (List.mem_of_mem_drop member)

end Yaml
end RouteForge
