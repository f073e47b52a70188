import RouteForge.Proofs.Document.Reading

/-! Documents as values and back. The value of an ordered document reads as that document: its keys
are texts, and they stand in the order in which reading puts them. -/
namespace RouteForge

namespace Fields

variable {α : Type} {fields : Fields α} {name : String} {x : α}

theorem get?_eq_none_of_lt (last : ∀ f ∈ fields, f.1 < name) : get? fields name = none := by
  cases found : get? fields name with
  | none => rfl
  | some x => exact absurd rfl (String.ne_of_lt (last (name, x) (mem_of_get? found)))

theorem put_last (last : ∀ f ∈ fields, f.1 < name) : put name x fields = fields ++ [(name, x)] := by
  induction fields with
  | nil => rfl
  | cons f rest ih =>
    obtain ⟨n, y⟩ := f
    obtain ⟨less, others⟩ := List.forall_mem_cons.mp last
    have apart : name ≠ n := Ne.symm (String.ne_of_lt less)
    have behind : ¬ name < n := String.lt_asymm less
    simp [put, apart, behind, ih others]

end Fields

namespace Document

mutual

theorem ofValue_toValue : ∀ {d : Document}, d.Ordered → ofValue d.toValue = .ok d
  | .scalar s, _ => by cases s <;> rfl
  | .sequence items, ordered => by
    unfold toValue ofValue
    rw [ofItems_itemValues ordered]
    rfl
  | .mapping fields, ordered => by
    unfold toValue ofValue
    rw [ofEntries_fieldValues [] ordered.1 ordered.2]
    rfl

theorem ofItems_itemValues : ∀ {items : List Document}, ItemsOrdered items →
    ofItems (itemValues items) = .ok items
  | [], _ => rfl
  | item :: rest, ordered => by
    unfold itemValues ofItems
    rw [ofValue_toValue ordered.1, ofItems_itemValues ordered.2]
    rfl

/-- Reading goes on behind the fields that it has. -/
theorem ofEntries_fieldValues : ∀ (before : List (String × Document))
    {fields : List (String × Document)}, Fields.Ascending (before ++ fields) → FieldsOrdered fields →
    ofEntries before (fieldValues fields) = .ok (before ++ fields)
  | before, [], _, _ => by
    rw [List.append_nil]
    rfl
  | before, (name, d) :: rest, ascending, ordered => by
    have last : ∀ f ∈ before, f.1 < name := fun f member =>
      (List.pairwise_append.mp ascending).2.2 f member (name, d) List.mem_cons_self
    have onward : Fields.Ascending ((before ++ [(name, d)]) ++ rest) := by
      rw [List.append_assoc]
      exact ascending
    unfold fieldValues ofEntries
    simp only [keyText, Fields.get?_eq_none_of_lt last, Option.isSome_none, Bool.false_eq_true,
      if_false, ofValue_toValue ordered.1, Fields.put_last last,
      ofEntries_fieldValues _ onward ordered.2, List.append_assoc, List.singleton_append]

end

/-- A text that holds the value of a mapping reads as the mapping. -/
theorem ofText_of_read {d : Document} {text : String} (ordered : d.Ordered)
    (top : d.shape = .mapping) (read : Yaml.read text = .ok d.toValue) : ofText text = .ok d := by
  cases d with
  | scalar | sequence => cases top
  | mapping fields =>
    unfold ofText
    rw [read]
    dsimp only
    rw [ofValue_toValue ordered]

end Document
end RouteForge
