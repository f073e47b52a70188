import RouteForge.Proofs.Document.Reading
import RouteForge.Proofs.Yaml.Nesting

/-! How deep the collections of a document stand in each other. Neither reading nor merging makes them
deeper, so that what comes from texts can be read back from a text. -/
namespace RouteForge.Document

open RouteForge.Yaml (Value)

mutual

/-- How many collections stand in each other. -/
def nesting : Document → Nat
  | .scalar _ => 0
  | .sequence items => itemsNesting items + 1
  | .mapping fields => fieldsNesting fields + 1

def itemsNesting : List Document → Nat
  | [] => 0
  | d :: rest => max d.nesting (itemsNesting rest)

def fieldsNesting : List (String × Document) → Nat
  | [] => 0
  | (_, d) :: rest => max d.nesting (fieldsNesting rest)

end

variable {n : Nat}

theorem itemsNesting_le_iff {items : List Document} :
    itemsNesting items ≤ n ↔ ∀ d ∈ items, d.nesting ≤ n := by
  induction items with
  | nil => simp [itemsNesting]
  | cons d rest ih => rw [itemsNesting, Nat.max_le, ih, List.forall_mem_cons]

theorem fieldsNesting_le_iff {fields : Fields Document} :
    fieldsNesting fields ≤ n ↔ ∀ f ∈ fields, f.2.nesting ≤ n := by
  induction fields with
  | nil => simp [fieldsNesting]
  | cons f rest ih => rw [fieldsNesting, Nat.max_le, ih, List.forall_mem_cons]

theorem fieldsNesting_put {fields : Fields Document} {name : String} {d : Document}
    (within : fieldsNesting fields ≤ n) (new : d.nesting ≤ n) :
    fieldsNesting (Fields.put name d fields) ≤ n := by
  refine fieldsNesting_le_iff.mpr fun f member => ?_
  rcases Fields.mem_put member with rfl | member
  · exact new
  · exact fieldsNesting_le_iff.mp within f member

/-! Documents as values. -/

mutual

theorem nesting_toValue : ∀ d : Document, d.toValue.nesting = d.nesting
  | .scalar s => by cases s <;> rfl
  | .sequence items => congrArg (· + 1) (nesting_itemValues items)
  | .mapping fields => congrArg (· + 1) (nesting_fieldValues fields)

theorem nesting_itemValues : ∀ items : List Document,
    Value.itemsNesting (itemValues items) = itemsNesting items
  | [] => rfl
  | d :: rest => congrArg₂ max (nesting_toValue d) (nesting_itemValues rest)

theorem nesting_fieldValues : ∀ fields : List (String × Document),
    Value.entriesNesting (fieldValues fields) = fieldsNesting fields
  | [] => rfl
  | (name, d) :: rest => by
    unfold fieldValues Value.entriesNesting fieldsNesting
    rw [nesting_toValue d, nesting_fieldValues rest]
    exact congrArg (max · _) (Nat.zero_max _)

end

theorem keys_fieldValues (fields : Fields Document) :
    (fieldValues fields).map Prod.fst = fields.map fun f => Value.string f.1 := by
  induction fields with
  | nil => rfl
  | cons f rest ih => exact congrArg (_ :: ·) ih

mutual

/-- The value of an ordered document has texts for keys, each of them once. -/
theorem bare_toValue : ∀ {d : Document}, d.Ordered → d.toValue.Bare
  | .scalar s, _ => by cases s <;> trivial
  | .sequence _, ordered => bare_itemValues ordered
  | .mapping fields, ordered => by
    refine ⟨?_, bare_fieldValues ordered.2⟩
    rw [keys_fieldValues]
    refine List.pairwise_map.mpr (ordered.1.imp fun less same => ?_)
    exact String.ne_of_lt less (Value.string.inj same)

theorem bare_itemValues : ∀ {items : List Document}, ItemsOrdered items →
    Value.ItemsBare (itemValues items)
  | [], _ => trivial
  | _ :: _, ordered => ⟨bare_toValue ordered.1, bare_itemValues ordered.2⟩

theorem bare_fieldValues : ∀ {fields : List (String × Document)}, FieldsOrdered fields →
    Value.EntriesBare (fieldValues fields)
  | [], _ => trivial
  | _ :: _, ordered => ⟨bare_toValue ordered.1, bare_fieldValues ordered.2⟩

end

/-! Documents from values and texts. -/

mutual

theorem nesting_of_ofValue : ∀ {v : Value} {d : Document}, ofValue v = .ok d →
    d.nesting ≤ v.nesting
  | .null, _, read | .bool _, _, read | .number _, _, read | .string _, _, read => by
    cases read
    exact Nat.le_refl 0
  | .tagged _ content, _, read => nesting_of_ofValue (v := content) read
  | .sequence values, _, read => by
    obtain ⟨items, found, rfl⟩ := ofSequence_eq_ok_iff.mp read
    exact Nat.succ_le_succ (nesting_of_ofItems found)
  | .mapping entries, _, read => by
    obtain ⟨fields, found, rfl⟩ := ofMapping_eq_ok_iff.mp read
    exact Nat.succ_le_succ (nesting_of_ofEntries found (Nat.zero_le _) (Nat.le_refl _))

theorem nesting_of_ofItems : ∀ {values : List Value} {items : List Document},
    ofItems values = .ok items → itemsNesting items ≤ Value.itemsNesting values
  | [], _, read => by
    cases read
    exact Nat.le_refl 0
  | value :: rest, _, read => by
    obtain ⟨d, items, first, others, rfl⟩ := ofItems_cons_eq_ok_iff.mp read
    have here := nesting_of_ofValue first
    have behind := nesting_of_ofItems others
    unfold itemsNesting Value.itemsNesting
    omega

theorem nesting_of_ofEntries : ∀ {entries : List (Value × Value)} {fields found : Fields Document}
    {n : Nat}, ofEntries fields entries = .ok found → fieldsNesting fields ≤ n →
    Value.entriesNesting entries ≤ n → fieldsNesting found ≤ n
  | [], _, _, _, read, within, _ => by
    cases read
    exact within
  | (key, value) :: rest, fields, _, n, read, within, below => by
    unfold Value.entriesNesting at below
    cases entered_of_eq read with
    | onward text fresh content others =>
      have here := nesting_of_ofValue content
      exact nesting_of_ofEntries others (fieldsNesting_put within (by omega)) (by omega)

end

/-- What a text holds is nested no deeper than the limit. -/
theorem nesting_of_ofText {text : String} {d : Document} (read : ofText text = .ok d) :
    d.nesting ≤ Yaml.nestingLimit := by
  unfold ofText at read
  split at read
  next => cases read
  next v parsed =>
    have limited := Yaml.nesting_of_read parsed
    split at read
    next => cases read
    next =>
      cases read
      decide
    next fields found =>
      cases read
      exact Nat.le_trans (nesting_of_ofValue found) limited
    next => cases read

/-! Merging. -/

theorem fieldsNesting_mergeFields {fields incoming : Fields Document}
    (each : ∀ f ∈ incoming, ∀ a : Document, a.nesting ≤ n → f.2.nesting ≤ n →
      (a.merge f.2).nesting ≤ n)
    (left : fieldsNesting fields ≤ n) (right : fieldsNesting incoming ≤ n) :
    fieldsNesting (mergeFields fields incoming) ≤ n := by
  induction incoming generalizing fields with
  | nil => exact left
  | cons f rest ih =>
    obtain ⟨name, d⟩ := f
    obtain ⟨here, others⟩ := List.forall_mem_cons.mp each
    obtain ⟨new, behind⟩ := Nat.max_le.mp right
    refine ih others (fieldsNesting_put left ?_) behind
    split
    next old found =>
      exact here old (fieldsNesting_le_iff.mp left _ (Fields.mem_of_get? found)) new
    next => exact new

/-- Merging makes nothing deeper than it was on either side. -/
theorem nesting_merge {a b : Document} (left : a.nesting ≤ n) (right : b.nesting ≤ n) :
    (a.merge b).nesting ≤ n := by
  induction b using inductionOn generalizing a n with
  | scalar s => cases a <;> exact right
  | sequence items _ =>
    cases a with
    | scalar | mapping => exact right
    | sequence below =>
      cases n with
      | zero => cases right
      | succ n =>
        have front := itemsNesting_le_iff.mp (Nat.le_of_succ_le_succ left)
        have back := itemsNesting_le_iff.mp (Nat.le_of_succ_le_succ right)
        exact Nat.succ_le_succ (itemsNesting_le_iff.mpr (List.forall_mem_append.mpr ⟨front, back⟩))
  | mapping incoming ih =>
    cases a with
    | scalar | sequence => exact right
    | mapping fields =>
      cases n with
      | zero => cases right
      | succ n =>
        exact Nat.succ_le_succ (fieldsNesting_mergeFields (fun f member _ => ih f member)
          (Nat.le_of_succ_le_succ left) (Nat.le_of_succ_le_succ right))

end RouteForge.Document
