import Mathlib.Logic.Relation
import RouteForge.Proofs.Document.Reading
import RouteForge.Proofs.Traversal

/-! What reading a value accepts and what it keeps. A value is refused exactly for a key that is no
scalar or for two keys with one text, at whatever depth. Every other value is read without loss but
for its tags and the order of its entries. -/
namespace RouteForge

namespace Yaml.Value

/-- The value behind the tags in front of it. -/
def untagged : Value → Value
  | .tagged _ content => content.untagged
  | v => v

/-- The text that a key counts by. -/
def keyName? (key : Value) : Option String :=
  match key.untagged with
  | .null => some "null"
  | .bool b => some (boolText b)
  | .number n => some n.text
  | .string s => some s
  | .sequence _ | .mapping _ | .tagged _ _ => none

/-- An item, the value of an entry, or what stands behind a tag. Keys are no parts. -/
inductive Part : Value → Value → Prop where
  | item {items v} (member : v ∈ items) : Part (.sequence items) v
  | entry {entries e} (member : e ∈ entries) : Part (.mapping entries) e.2
  | content {tag v} : Part (.tagged tag v) v

/-- The value itself, or what stands in it at any depth. -/
def Reaches (v w : Value) : Prop := Relation.ReflTransGen Part v w

/-- Values that differ in the order of the entries of their mappings, at any depth. -/
inductive Reordered : Value → Value → Prop where
  | refl (v) : Reordered v v
  | trans {u v w} (first : Reordered u v) (second : Reordered v w) : Reordered u w
  | entries {xs ys} (perm : xs.Perm ys) : Reordered (.mapping xs) (.mapping ys)
  | item {before behind v w} (inner : Reordered v w) :
      Reordered (.sequence (before ++ v :: behind)) (.sequence (before ++ w :: behind))
  | value {before behind key v w} (inner : Reordered v w) :
      Reordered (.mapping (before ++ (key, v) :: behind)) (.mapping (before ++ (key, w) :: behind))
  | content {tag v w} (inner : Reordered v w) : Reordered (.tagged tag v) (.tagged tag w)

mutual

/-- The value without any tag, keys included. -/
def stripped : Value → Value
  | .sequence items => .sequence (itemsStripped items)
  | .mapping entries => .mapping (entriesStripped entries)
  | .tagged _ content => content.stripped
  | v => v

def itemsStripped : List Value → List Value
  | [] => []
  | v :: rest => v.stripped :: itemsStripped rest

def entriesStripped : List (Value × Value) → List (Value × Value)
  | [] => []
  | (key, v) :: rest => (key.stripped, v.stripped) :: entriesStripped rest

end

end Yaml.Value

namespace Document

open RouteForge.Yaml (Value)

/-- What is wrong with the keys of a mapping. -/
inductive KeyFault (entries : List (Value × Value)) : DecodeError → Prop where
  | sequence {e items} (member : e ∈ entries) (bare : e.1.untagged = .sequence items) :
      KeyFault entries (.keyNotScalar .sequence)
  | mapping {e inner} (member : e ∈ entries) (bare : e.1.untagged = .mapping inner) :
      KeyFault entries (.keyNotScalar .mapping)
  | repeated {first second name} (two : [first, second].Sublist entries)
      (here : first.1.keyName? = some name) (there : second.1.keyName? = some name) :
      KeyFault entries (.repeatedKey name)

/-- A mapping in the value has such keys. -/
def Faulty (v : Value) (e : DecodeError) : Prop :=
  ∃ entries, v.Reaches (.mapping entries) ∧ KeyFault entries e

mutual

/-- What a value says as a document. A tag says nothing, a sequence has its items in their order, and
a mapping has one field for each entry, under the text of its key. -/
def Reads : Value → Document → Prop
  | .null, d => d = .scalar .null
  | .bool b, d => d = .scalar (.bool b)
  | .number n, d => d = .scalar (.number n)
  | .string s, d => d = .scalar (.text s)
  | .sequence items, d => ∃ ds, d = .sequence ds ∧ ItemsRead items ds
  | .mapping entries, d => ∃ named fields, d = .mapping fields ∧ EntriesRead entries named ∧
      fields.Perm named ∧ Fields.Ascending fields
  | .tagged _ content, d => Reads content d

def ItemsRead : List Value → List Document → Prop
  | [], ds => ds = []
  | v :: rest, ds => ∃ d others, ds = d :: others ∧ Reads v d ∧ ItemsRead rest others

def EntriesRead : List (Value × Value) → List (String × Document) → Prop
  | [], named => named = []
  | (key, v) :: rest, named => ∃ name d others, named = (name, d) :: others ∧
      key.keyName? = some name ∧ Reads v d ∧ EntriesRead rest others

end

theorem itemsRead_iff {items : List Value} {ds : List Document} :
    ItemsRead items ds ↔ List.Forall₂ Reads items ds := by
  induction items generalizing ds with
  | nil => simp [ItemsRead]
  | cons v rest ih =>
    simp only [ItemsRead, ih, List.forall₂_cons_left_iff]
    exact ⟨fun ⟨d, others, whole, here, behind⟩ => ⟨d, others, here, behind, whole⟩,
      fun ⟨d, others, here, behind, whole⟩ => ⟨d, others, whole, here, behind⟩⟩

theorem entriesRead_iff {entries : List (Value × Value)} {named : List (String × Document)} :
    EntriesRead entries named ↔
      List.Forall₂ (fun e f => e.1.keyName? = some f.1 ∧ Reads e.2 f.2) entries named := by
  induction entries generalizing named with
  | nil => simp [EntriesRead]
  | cons e rest ih =>
    obtain ⟨key, v⟩ := e
    simp only [EntriesRead, ih, List.forall₂_cons_left_iff]
    constructor
    · rintro ⟨name, d, others, rfl, key, here, behind⟩
      exact ⟨(name, d), others, ⟨key, here⟩, behind, rfl⟩
    · rintro ⟨⟨name, d⟩, others, ⟨key, here⟩, behind, rfl⟩
      exact ⟨name, d, others, rfl, key, here, behind⟩

/-! ### Keys -/

theorem keyText_eq_ok_iff : ∀ {key : Value} {name : String},
    keyText key = .ok name ↔ key.keyName? = some name
  | .tagged _ key, _ => @keyText_eq_ok_iff key _
  | .null, _ | .bool _, _ | .number _, _ | .string _, _ | .sequence _, _ | .mapping _, _ => by
    simp [keyText, Value.keyName?, Value.untagged]

theorem untagged_of_keyText_error : ∀ {key : Value} {e : DecodeError}, keyText key = .error e →
    (∃ items, key.untagged = .sequence items) ∧ e = .keyNotScalar .sequence ∨
      (∃ entries, key.untagged = .mapping entries) ∧ e = .keyNotScalar .mapping
  | .tagged _ key, _, refused => @untagged_of_keyText_error key _ refused
  | .sequence items, _, refused => by
    cases refused
    exact .inl ⟨⟨items, rfl⟩, rfl⟩
  | .mapping entries, _, refused => by
    cases refused
    exact .inr ⟨⟨entries, rfl⟩, rfl⟩

theorem keyText_stripped : ∀ key : Value, keyText key.stripped = keyText key
  | .tagged _ key => keyText_stripped key
  | .null | .bool _ | .number _ | .string _ | .sequence _ | .mapping _ => rfl

/-! ### What is read -/

mutual

theorem ofValue_eq_ok_iff : ∀ {v : Value} {d : Document}, ofValue v = .ok d ↔ Reads v d
  | .null, _ | .bool _, _ | .number _, _ | .string _, _ => by simp [ofValue, Reads, eq_comm]
  | .tagged _ content, _ => ofValue_eq_ok_iff (v := content)
  | .sequence items, d => by
    have inner (ds : List Document) : ofItems items = .ok ds ↔ ItemsRead items ds := ofItems_eq_ok_iff
    rw [ofSequence_eq_ok_iff, Reads]
    simp only [inner, and_comm]
  | .mapping entries, d => by
    have inner (found : Fields Document) : ofEntries [] entries = .ok found ↔
        ∃ named, EntriesRead entries named ∧ found.Perm named ∧ Fields.Ascending found := by
      simpa using @ofEntries_eq_ok_iff entries [] found .nil
    rw [ofMapping_eq_ok_iff, Reads]
    constructor
    · rintro ⟨fields, found, rfl⟩
      obtain ⟨named, each, perm, ascending⟩ := (inner fields).mp found
      exact ⟨named, fields, rfl, each, perm, ascending⟩
    · rintro ⟨named, fields, rfl, each, perm, ascending⟩
      exact ⟨fields, (inner fields).mpr ⟨named, each, perm, ascending⟩, rfl⟩

theorem ofItems_eq_ok_iff : ∀ {items : List Value} {ds : List Document},
    ofItems items = .ok ds ↔ ItemsRead items ds
  | [], ds => by simp [ofItems, ItemsRead, eq_comm]
  | v :: rest, ds => by
    have first (d : Document) : ofValue v = .ok d ↔ Reads v d := ofValue_eq_ok_iff
    have others (es : List Document) : ofItems rest = .ok es ↔ ItemsRead rest es := ofItems_eq_ok_iff
    rw [ofItems_cons_eq_ok_iff, ItemsRead]
    simp only [first, others, and_comm, and_assoc]

/-- Reading goes on from the fields that it has and adds one for each entry. -/
theorem ofEntries_eq_ok_iff : ∀ {entries : List (Value × Value)} {fields found : Fields Document},
    fields.Ascending → (ofEntries fields entries = .ok found ↔ ∃ named, EntriesRead entries named ∧
      found.Perm (named ++ fields) ∧ Fields.Ascending found)
  | [], fields, found, ascending => by
    unfold ofEntries EntriesRead
    constructor
    · intro same
      cases same
      exact ⟨[], rfl, .refl _, ascending⟩
    · rintro ⟨_, rfl, perm, ordered⟩
      rw [Fields.Ascending.eq_of_perm ordered ascending perm]
  | (key, v) :: rest, fields, found, ascending => by
    have first (d : Document) : ofValue v = .ok d ↔ Reads v d := ofValue_eq_ok_iff
    have behind (name : String) (d : Document) :
        ofEntries (Fields.put name d fields) rest = .ok found ↔ _ := ofEntries_eq_ok_iff ascending.put
    unfold EntriesRead
    constructor
    · intro read
      cases entered_of_eq read with
      | @onward name d _ text fresh content others =>
        obtain ⟨more, each, perm, ordered⟩ := (behind name d).mp others
        exact ⟨(name, d) :: more, ⟨name, d, more, rfl, keyText_eq_ok_iff.mp text,
          (first d).mp content, each⟩, perm.trans (Fields.append_put_perm more fresh), ordered⟩
    · rintro ⟨_, ⟨name, d, more, rfl, text, content, each⟩, perm, ordered⟩
      have fresh : Fields.get? fields name = none := by
        cases old : Fields.get? fields name with
        | none => rfl
        | some e =>
          have member := List.mem_append_right more (Fields.mem_of_get? old)
          exact absurd rfl (ordered.ne_of_perm perm _ member)
      unfold ofEntries
      simp only [keyText_eq_ok_iff.mpr text, fresh, Option.isSome_none, Bool.false_eq_true, if_false,
        (first d).mpr content]
      exact (behind name d).mpr
        ⟨more, each, perm.trans (Fields.append_put_perm more fresh).symm, ordered⟩

end

/-! ### What is refused -/

theorem Faulty.of_part {v w : Value} {e : DecodeError} (part : v.Part w) (faulty : Faulty w e) :
    Faulty v e := by
  obtain ⟨entries, below, fault⟩ := faulty
  exact ⟨entries, .head part below, fault⟩

mutual

theorem faulty_of_error : ∀ {v : Value} {e : DecodeError}, ofValue v = .error e → Faulty v e
  | .null, _, refused | .bool _, _, refused | .number _, _, refused | .string _, _, refused => by
    cases refused
  | .tagged _ content, _, refused => (faulty_of_error (v := content) refused).of_part .content
  | .sequence items, e, refused => by
    obtain ⟨v, member, faulty⟩ := faulty_of_items (ofSequence_eq_error_iff.mp refused)
    exact faulty.of_part (.item member)
  | .mapping entries, e, refused => by
    have origin : ∀ name d, Fields.get? ([] : Fields Document) name = some d →
        ∃ f ∈ ([] : List (Value × Value)), f.1.keyName? = some name := by
      simp [Fields.get?]
    rcases faulty_of_entries origin (ofMapping_eq_error_iff.mp refused) with
      ⟨f, member, faulty⟩ | fault
    · exact faulty.of_part (.entry member)
    · exact ⟨entries, .refl, fault⟩

theorem faulty_of_items : ∀ {items : List Value} {e : DecodeError}, ofItems items = .error e →
    ∃ v ∈ items, Faulty v e
  | v :: rest, e, refused => by
    rcases ofItems_cons_eq_error refused with first | others
    · exact ⟨v, List.mem_cons_self, faulty_of_error first⟩
    · obtain ⟨w, member, faulty⟩ := faulty_of_items others
      exact ⟨w, List.mem_cons_of_mem _ member, faulty⟩

/-- The fields so far are of entries before, so that a key that is there already stands twice. -/
theorem faulty_of_entries : ∀ {before entries : List (Value × Value)} {fields : Fields Document}
    {e : DecodeError},
    (∀ name d, Fields.get? fields name = some d → ∃ f ∈ before, f.1.keyName? = some name) →
    ofEntries fields entries = .error e →
    (∃ f ∈ entries, Faulty f.2 e) ∨ KeyFault (before ++ entries) e
  | before, (key, v) :: rest, fields, e, origin, refused => by
    have here : (key, v) ∈ before ++ (key, v) :: rest := by simp
    cases entered_of_eq refused with
    | unnamed text =>
      rcases untagged_of_keyText_error text with ⟨⟨items, bare⟩, rfl⟩ | ⟨⟨inner, bare⟩, rfl⟩
      · exact .inr (.sequence here bare)
      · exact .inr (.mapping here bare)
    | taken text old =>
      obtain ⟨d, old⟩ := Option.isSome_iff_exists.mp old
      obtain ⟨f, member, same⟩ := origin _ d old
      have two : ([f] ++ [(key, v)]).Sublist (before ++ (key, v) :: rest) :=
        (List.singleton_sublist.mpr member).append (by simp)
      exact .inr (.repeated two same (keyText_eq_ok_iff.mp text))
    | unread text content => exact .inl ⟨(key, v), List.mem_cons_self, faulty_of_error content⟩
    | @onward name d _ text fresh content others =>
      have origin' : ∀ n x, Fields.get? (Fields.put name d fields) n = some x →
          ∃ f ∈ before ++ [(key, v)], f.1.keyName? = some n := by
        intro n x found
        by_cases same : n = name
        · exact ⟨(key, v), by simp, same ▸ keyText_eq_ok_iff.mp text⟩
        · rw [Fields.get?_put_other _ _ same] at found
          obtain ⟨f, member, counted⟩ := origin n x found
          exact ⟨f, List.mem_append_left _ member, counted⟩
      have later := faulty_of_entries origin' others
      rw [List.append_assoc, List.singleton_append] at later
      exact later.imp_left fun ⟨f, member, faulty⟩ => ⟨f, List.mem_cons_of_mem _ member, faulty⟩

end

/-- Whatever stands in a value that is read is read itself. -/
theorem exists_reads_of_part {v w : Value} {d : Document} (reads : Reads v d) (part : v.Part w) :
    ∃ e, Reads w e := by
  cases part with
  | item member =>
    obtain ⟨ds, -, each⟩ := reads
    obtain ⟨e, -, here⟩ := exists_of_forall₂ (itemsRead_iff.mp each) member
    exact ⟨e, here⟩
  | entry member =>
    obtain ⟨named, -, -, each, -⟩ := reads
    obtain ⟨f, -, here⟩ := exists_of_forall₂ (entriesRead_iff.mp each) member
    exact ⟨f.2, here.2⟩
  | content => exact ⟨d, reads⟩

theorem exists_reads_of_reaches {v w : Value} {d : Document} (reads : Reads v d)
    (below : v.Reaches w) : ∃ e, Reads w e := by
  induction below with
  | refl => exact ⟨d, reads⟩
  | tail _ part ih =>
    obtain ⟨e, here⟩ := ih
    exact exists_reads_of_part here part

/-- The keys of a mapping that is read have texts, and no two of them the same. -/
theorem keys_of_reads {entries : List (Value × Value)} {d : Document}
    (reads : Reads (.mapping entries) d) : (∀ e ∈ entries, ∃ name, e.1.keyName? = some name) ∧
      entries.Pairwise (fun e f => e.1.keyName? ≠ f.1.keyName?) := by
  obtain ⟨named, fields, -, each, perm, ascending⟩ := reads
  rw [entriesRead_iff] at each
  have texts : entries.map (·.1.keyName?) = named.map (some ·.1) := by
    rw [← List.forall₂_eq_eq_eq, List.forall₂_map_left_iff, List.forall₂_map_right_iff]
    exact each.imp fun _ _ here => here.1
  have apart : named.Pairwise (fun f g => some f.1 ≠ some g.1) :=
    (perm.pairwise_iff (R := fun f g => some f.1 ≠ some g.1) Ne.symm).mp
      (ascending.imp fun less same => String.ne_of_lt less (Option.some.inj same))
  refine ⟨fun e member => ?_, ?_⟩
  · obtain ⟨f, -, here⟩ := exists_of_forall₂ each member
    exact ⟨f.1, here.1⟩
  · rw [← List.pairwise_map (f := fun e : Value × Value => e.1.keyName?), texts, List.pairwise_map]
    exact apart

theorem not_keyFault_of_reads {entries : List (Value × Value)} {d : Document} {e : DecodeError}
    (reads : Reads (.mapping entries) d) : ¬ KeyFault entries e := by
  obtain ⟨texts, apart⟩ := keys_of_reads reads
  rintro (⟨member, bare⟩ | ⟨member, bare⟩ | ⟨two, here, there⟩)
  · obtain ⟨name, text⟩ := texts _ member
    simp [Value.keyName?, bare] at text
  · obtain ⟨name, text⟩ := texts _ member
    simp [Value.keyName?, bare] at text
  · have differ := List.pairwise_pair.mp (apart.sublist two)
    exact differ (here.trans there.symm)

theorem exists_ofValue_iff {v : Value} : (∃ d, ofValue v = .ok d) ↔ ¬ ∃ e, Faulty v e := by
  constructor
  · rintro ⟨d, read⟩ ⟨e, entries, below, fault⟩
    obtain ⟨found, reads⟩ := exists_reads_of_reaches (ofValue_eq_ok_iff.mp read) below
    exact not_keyFault_of_reads reads fault
  · intro sound
    cases read : ofValue v with
    | ok d => exact ⟨d, rfl⟩
    | error e => exact absurd ⟨e, faulty_of_error read⟩ sound

/-! ### What is kept -/

/-- A mapping that is read has as many fields as entries, each under the text of its key. -/
theorem fields_of_reads {entries : List (Value × Value)} {d : Document}
    (reads : Reads (.mapping entries) d) : ∃ fields, d = .mapping fields ∧
      fields.length = entries.length ∧ ∀ e ∈ entries, ∃ name x, e.1.keyName? = some name ∧
        Fields.get? fields name = some x ∧ ofValue e.2 = .ok x := by
  obtain ⟨named, fields, rfl, each, perm, ascending⟩ := reads
  rw [entriesRead_iff] at each
  refine ⟨fields, rfl, perm.length_eq.trans each.length_eq.symm, fun e member => ?_⟩
  obtain ⟨f, inside, text, here⟩ := exists_of_forall₂ each member
  exact ⟨f.1, f.2, text, Fields.get?_of_mem ascending (perm.mem_iff.mpr inside),
    ofValue_eq_ok_iff.mpr here⟩

mutual

/-- Tags do not count, wherever they stand. -/
theorem ofValue_stripped : ∀ v : Value, ofValue v.stripped = ofValue v
  | .null | .bool _ | .number _ | .string _ => rfl
  | .tagged _ content => ofValue_stripped content
  | .sequence items => by
    unfold Value.stripped ofValue
    rw [ofItems_stripped items]
  | .mapping entries => by
    unfold Value.stripped ofValue
    rw [ofEntries_stripped entries []]

theorem ofItems_stripped : ∀ items : List Value, ofItems (Value.itemsStripped items) = ofItems items
  | [] => rfl
  | v :: rest => by
    unfold Value.itemsStripped ofItems
    rw [ofValue_stripped v, ofItems_stripped rest]

theorem ofEntries_stripped : ∀ (entries : List (Value × Value)) (fields : Fields Document),
    ofEntries fields (Value.entriesStripped entries) = ofEntries fields entries
  | [], _ => rfl
  | (key, v) :: rest, fields => by
    unfold Value.entriesStripped ofEntries
    simp only [keyText_stripped, ofValue_stripped v, ofEntries_stripped rest]

end

theorem itemsRead_congr {v w : Value} (same : ∀ d, Reads v d ↔ Reads w d)
    (before behind : List Value) (ds : List Document) :
    ItemsRead (before ++ v :: behind) ds ↔ ItemsRead (before ++ w :: behind) ds := by
  induction before generalizing ds with
  | nil => simp only [List.nil_append, ItemsRead, same]
  | cons u before ih => simp only [List.cons_append, ItemsRead, ih]

theorem entriesRead_congr {v w : Value} (same : ∀ d, Reads v d ↔ Reads w d)
    (before behind : List (Value × Value)) (key : Value) (named : List (String × Document)) :
    EntriesRead (before ++ (key, v) :: behind) named ↔
      EntriesRead (before ++ (key, w) :: behind) named := by
  induction before generalizing named with
  | nil => simp only [List.nil_append, EntriesRead, same]
  | cons e before ih => simp only [List.cons_append, EntriesRead, ih]

theorem reads_of_perm {xs ys : List (Value × Value)} {d : Document} (perm : xs.Perm ys)
    (reads : Reads (.mapping xs) d) : Reads (.mapping ys) d := by
  obtain ⟨named, fields, rfl, each, listed, ascending⟩ := reads
  obtain ⟨moved, here, same⟩ := List.perm_comp_forall₂ perm.symm (entriesRead_iff.mp each)
  exact ⟨moved, fields, rfl, entriesRead_iff.mpr here, listed.trans same.symm, ascending⟩

/-- The order of entries does not count, wherever the mapping stands. -/
theorem reads_iff_of_reordered {v w : Value} (reordered : v.Reordered w) (d : Document) :
    Reads v d ↔ Reads w d := by
  induction reordered generalizing d with
  | refl => exact Iff.rfl
  | trans _ _ first second => exact (first d).trans (second d)
  | entries perm => exact ⟨reads_of_perm perm, reads_of_perm perm.symm⟩
  | item _ ih => simp only [Reads, itemsRead_congr ih]
  | value _ ih => simp only [Reads, entriesRead_congr ih]
  | content _ ih => exact ih d

/-- Reading keeps every entry or fails. A value is read exactly if no mapping in it has a key that is no
scalar behind its tags, or two keys with one text, and what it is refused for is such a fault of it.
What is read is what `Reads` says, at every depth: each mapping has one field for each of its entries,
with what the value of the entry is read as under the text of the key. Neither tags nor the order of
entries make a difference. -/
theorem ofValue_keeps_entries (v : Value) :
    ((∃ d, ofValue v = .ok d) ↔ ¬ ∃ e, Faulty v e) ∧
    (∀ d, ofValue v = .ok d ↔ Reads v d) ∧
    (∀ d entries, ofValue v = .ok d → v.Reaches (.mapping entries) →
      ∃ fields, ofValue (.mapping entries) = .ok (.mapping fields) ∧
        fields.length = entries.length ∧ ∀ e ∈ entries, ∃ name x, e.1.keyName? = some name ∧
          Fields.get? fields name = some x ∧ ofValue e.2 = .ok x) ∧
    ofValue v.stripped = ofValue v ∧
    (∀ w, v.Reordered w → ∀ d, ofValue w = .ok d ↔ ofValue v = .ok d) ∧
    ∀ e, ofValue v = .error e → Faulty v e := by
  refine ⟨exists_ofValue_iff, fun d => ofValue_eq_ok_iff, ?_, ofValue_stripped v, ?_,
    fun e => faulty_of_error⟩
  · intro d entries read below
    obtain ⟨found, reads⟩ := exists_reads_of_reaches (ofValue_eq_ok_iff.mp read) below
    obtain ⟨fields, rfl, kept⟩ := fields_of_reads reads
    exact ⟨fields, ofValue_eq_ok_iff.mpr reads, kept⟩
  · intro w reordered d
    rw [ofValue_eq_ok_iff, ofValue_eq_ok_iff]
    exact (reads_iff_of_reordered reordered d).symm

example : ofValue (.sequence [.mapping [(.tagged "!id" (.number (.integer 1)), .null),
    (.string "1", .sequence [])]]) = .error (.repeatedKey "1") := by
  decide

end Document
end RouteForge
