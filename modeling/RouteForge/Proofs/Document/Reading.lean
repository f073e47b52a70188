import RouteForge.Document.OfValue
import RouteForge.Proofs.Document.Merge

/-! Documents that are read. Every document that a value yields is ordered at every depth, and every
document that a text yields is a mapping. -/
namespace RouteForge.Document

open RouteForge.Yaml (Value)

/-! ### One step of the reading -/

section Steps

variable {v : Value} {items : List Value} {entries : List (Value × Value)} {d : Document}
  {e : DecodeError}

theorem ofSequence_eq_ok_iff : ofValue (.sequence items) = .ok d ↔
    ∃ ds, ofItems items = .ok ds ∧ d = .sequence ds := by
  unfold ofValue
  cases ofItems items <;> simp [Except.map, eq_comm]

theorem ofSequence_eq_error_iff : ofValue (.sequence items) = .error e ↔ ofItems items = .error e := by
  unfold ofValue
  cases ofItems items <;> simp [Except.map]

theorem ofMapping_eq_ok_iff : ofValue (.mapping entries) = .ok d ↔
    ∃ fields, ofEntries [] entries = .ok fields ∧ d = .mapping fields := by
  unfold ofValue
  cases ofEntries [] entries <;> simp [Except.map, eq_comm]

theorem ofMapping_eq_error_iff :
    ofValue (.mapping entries) = .error e ↔ ofEntries [] entries = .error e := by
  unfold ofValue
  cases ofEntries [] entries <;> simp [Except.map]

theorem ofItems_cons_eq_ok_iff {ds : List Document} : ofItems (v :: items) = .ok ds ↔
    ∃ d others, ofValue v = .ok d ∧ ofItems items = .ok others ∧ ds = d :: others := by
  rw [ofItems]
  cases ofValue v <;> generalize ofItems items = rest <;> cases rest <;>
    simp [bind, Except.bind, pure, Except.pure, eq_comm]

theorem ofItems_cons_eq_error (refused : ofItems (v :: items) = .error e) :
    ofValue v = .error e ∨ ofItems items = .error e := by
  rw [ofItems] at refused
  cases first : ofValue v with
  | error r =>
    rw [first] at refused
    cases refused
    exact .inl rfl
  | ok d =>
    cases others : ofItems items with
    | error r =>
      rw [first, others] at refused
      cases refused
      exact .inr rfl
    | ok ds => rw [first, others] at refused; cases refused

/-- What reading entries comes to, by what becomes of the first of them. -/
inductive Entered (fields : Fields Document) (key v : Value) (rest : List (Value × Value)) :
    Except DecodeError (Fields Document) → Prop where
  | unnamed {reason} (refused : keyText key = .error reason) : Entered fields key v rest (.error reason)
  | taken {name} (text : keyText key = .ok name) (old : (Fields.get? fields name).isSome) :
      Entered fields key v rest (.error (.repeatedKey name))
  | unread {name reason} (text : keyText key = .ok name) (refused : ofValue v = .error reason) :
      Entered fields key v rest (.error reason)
  | onward {name x result} (text : keyText key = .ok name) (fresh : Fields.get? fields name = none)
      (content : ofValue v = .ok x) (others : ofEntries (Fields.put name x fields) rest = result) :
      Entered fields key v rest result

theorem entered (fields : Fields Document) (key v : Value) (rest : List (Value × Value)) :
    Entered fields key v rest (ofEntries fields ((key, v) :: rest)) := by
  unfold ofEntries
  cases text : keyText key with
  | error e => exact .unnamed text
  | ok name =>
    dsimp only
    split
    next old => exact .taken text old
    next free =>
      cases content : ofValue v with
      | error e => exact .unread text content
      | ok d => exact .onward text (by simpa using free) content rfl

theorem entered_of_eq {fields : Fields Document} {key : Value} {rest : List (Value × Value)} {result}
    (read : ofEntries fields ((key, v) :: rest) = result) : Entered fields key v rest result :=
  read ▸ entered fields key v rest

end Steps

/-! ### Documents in order -/

mutual

theorem ordered_of_ofValue : ∀ {v : Value} {d : Document}, ofValue v = .ok d → d.Ordered
  | .null, _, read | .bool _, _, read | .number _, _, read | .string _, _, read => by
    cases read
    trivial
  | .tagged _ content, _, read => ordered_of_ofValue (v := content) read
  | .sequence values, _, read => by
    obtain ⟨items, found, rfl⟩ := ofSequence_eq_ok_iff.mp read
    exact itemsOrdered_of_ofItems found
  | .mapping entries, _, read => by
    obtain ⟨fields, found, rfl⟩ := ofMapping_eq_ok_iff.mp read
    have start : Ordered (.mapping []) := ⟨.nil, trivial⟩
    exact ordered_of_ofEntries start found

theorem itemsOrdered_of_ofItems : ∀ {values : List Value} {items : List Document},
    ofItems values = .ok items → ItemsOrdered items
  | [], _, read => by
    cases read
    trivial
  | value :: rest, _, read => by
    obtain ⟨d, items, first, others, rfl⟩ := ofItems_cons_eq_ok_iff.mp read
    exact ⟨ordered_of_ofValue first, itemsOrdered_of_ofItems others⟩

theorem ordered_of_ofEntries : ∀ {entries : List (Value × Value)} {fields found : Fields Document},
    Ordered (.mapping fields) → ofEntries fields entries = .ok found → Ordered (.mapping found)
  | [], _, _, ordered, read => by
    cases read
    exact ordered
  | (key, value) :: rest, fields, _, ordered, read => by
    cases entered_of_eq read with
    | onward text fresh content others =>
      exact ordered_of_ofEntries (ordered.put (ordered_of_ofValue content)) others

end

/-- Only a mapping is read from a text. -/
theorem mapping_of_ofText {text : String} {d : Document} (read : ofText text = .ok d) :
    d.Ordered ∧ d.shape = .mapping := by
  unfold ofText at read
  split at read
  next => cases read
  next v parsed =>
    split at read
    next => cases read
    next => cases read; exact ⟨⟨.nil, trivial⟩, rfl⟩
    next fields found => cases read; exact ⟨ordered_of_ofValue found, rfl⟩
    next => cases read

end RouteForge.Document
