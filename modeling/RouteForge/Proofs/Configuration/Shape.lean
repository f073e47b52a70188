import RouteForge.Configuration.OfDocument
import RouteForge.Proofs.Document.Conversion
import RouteForge.Proofs.Traversal

/-! The shape of a configuration. Each reader accepts exactly the documents of its shape and gives what
these say; for any other document it names a shape. The shapes are those of the document as it is
written, before every scalar is replaced by its text. -/
namespace RouteForge

/-- A reading that gives the value of a document that fits, and names a shape for one that does not. -/
inductive Verdict {α : Type} (fits : Prop) (value : α) : Except DecodeError α → Prop where
  | fit (fit : fits) : Verdict fits value (.ok value)
  | misfit (unfit : ¬ fits) (found : Found) (expected : Shape) :
      Verdict fits value (.error (.shape found expected))

namespace Verdict

variable {α β : Type} {P Q : Prop} {v : α} {r : Except DecodeError α}

theorem congr (verdict : Verdict P v r) (same : P ↔ Q) : Verdict Q v r := by
  cases verdict with
  | fit fits => exact .fit (same.mp fits)
  | misfit unfit => exact .misfit (mt same.mpr unfit) _ _

theorem map (verdict : Verdict P v r) (g : α → β) : Verdict P (g v) (g <$> r) := by
  cases verdict with
  | fit fits => exact .fit fits
  | misfit unfit => exact .misfit unfit _ _

/-- A list fits if all its members do. -/
theorem mapM {f : α → Except DecodeError β} {fits : α → Prop} {value : α → β} {xs : List α}
    (each : ∀ x ∈ xs, Verdict (fits x) (value x) (f x)) :
    Verdict (∀ x ∈ xs, fits x) (xs.map value) (xs.mapM f) := by
  induction xs with
  | nil => exact .fit (by simp)
  | cons x xs ih =>
    obtain ⟨first, others⟩ := List.forall_mem_cons.mp each
    rw [List.mapM_cons]
    generalize f x = r at first
    cases first with
    | misfit unfit => exact .misfit (fun all => unfit (all x List.mem_cons_self)) _ _
    | fit fits =>
      have rest := ih others
      generalize xs.mapM f = rs at rest
      cases rest with
      | misfit unfit => exact .misfit (fun all => unfit fun y member => all y (.tail x member)) _ _
      | fit below => exact .fit (List.forall_mem_cons.mpr ⟨fits, below⟩)

/-- A record that is set field by field fits if every field does. -/
theorem foldlM {σ : Type} (set : σ → String → α → Except DecodeError σ) {fits : String → α → Prop}
    {put : σ → String → α → σ} {fields : Fields α}
    (each : ∀ s, ∀ f ∈ fields, Verdict (fits f.1 f.2) (put s f.1 f.2) (set s f.1 f.2)) (s : σ) :
    Verdict (∀ f ∈ fields, fits f.1 f.2) (fields.foldl (fun s f => put s f.1 f.2) s)
      (fields.foldlM (fun s (name, x) => set s name x) s) := by
  induction fields generalizing s with
  | nil => exact .fit (by simp)
  | cons f fields ih =>
    obtain ⟨name, x⟩ := f
    have first := each s (name, x) List.mem_cons_self
    rw [List.foldlM_cons, List.foldl_cons]
    dsimp only at first ⊢
    generalize set s name x = r at first
    cases first with
    | misfit unfit => exact .misfit (fun all => unfit (all (name, x) List.mem_cons_self)) _ _
    | fit fits =>
      have rest := ih (fun s g member => each s g (.tail _ member)) (put s name x)
      refine rest.congr ⟨fun all => List.forall_mem_cons.mpr ⟨fits, all⟩, fun all => ?_⟩
      exact (List.forall_mem_cons.mp all).2

end Verdict

namespace Document

/-- A scalar other than null. -/
def HasText (d : Document) : Prop := ∃ s, d = .scalar s ∧ s ≠ .null

/-- Null, or a sequence of texts. -/
inductive IsTexts : Document → Prop where
  | null : IsTexts (.scalar .null)
  | sequence {items : List Document} (each : ∀ d ∈ items, d.HasText) : IsTexts (.sequence items)

/-- Null, or a mapping to texts. -/
inductive IsTextFields : Document → Prop where
  | null : IsTextFields (.scalar .null)
  | mapping {fields : Fields Document} (each : ∀ f ∈ fields, f.2.HasText) :
      IsTextFields (.mapping fields)

/-- The text of a scalar. -/
def wording : Document → String
  | .scalar s => s.text?.getD ""
  | _ => ""

/-- The texts of the items of a sequence, in their order. -/
def wordings : Document → List String
  | .sequence items => items.map wording
  | _ => []

/-- The texts of the fields of a mapping, under their names. -/
def wordingFields : Document → Fields String
  | .mapping fields => fields.map fun f => (f.1, f.2.wording)
  | _ => []

theorem readText_verdict (d : Document) : Verdict d.HasText d.wording d.asText.readText := by
  cases d with
  | scalar s =>
    cases s with
    | null => exact .misfit (by rintro ⟨s, same, some⟩; cases same; exact some rfl) _ _
    | bool | number | text => exact .fit ⟨_, rfl, nofun⟩
  | sequence | mapping => exact .misfit (by rintro ⟨s, same, -⟩; cases same) _ _

theorem readTexts_verdict (d : Document) : Verdict d.IsTexts d.wordings d.asText.readTexts := by
  cases d with
  | scalar s =>
    cases s with
    | null => exact .fit .null
    | bool | number | text => exact .misfit nofun _ _
  | mapping => exact .misfit nofun _ _
  | sequence items =>
    have each : Verdict (∀ d ∈ items, d.HasText) (items.map wording)
        (items.mapM fun d => d.asText.readText) := .mapM fun d _ => readText_verdict d
    simp only [asText, itemsAsText_eq_map, readTexts, readList, List.mapM_map]
    refine each.congr ⟨.sequence, fun fit => ?_⟩
    cases fit with
    | sequence each => exact each

theorem readTextFields_verdict (d : Document) :
    Verdict d.IsTextFields d.wordingFields d.asText.readTextFields := by
  cases d with
  | scalar s =>
    cases s with
    | null => exact .fit .null
    | bool | number | text => exact .misfit nofun _ _
  | sequence => exact .misfit nofun _ _
  | mapping fields =>
    have each : Verdict (∀ f ∈ fields, f.2.HasText) (fields.map fun f => (f.1, f.2.wording))
        (fields.mapM fun f => (f.1, ·) <$> f.2.asText.readText) :=
      .mapM fun f _ => (readText_verdict f.2).map (f.1, ·)
    simp only [asText, fieldsAsText_eq_map, readTextFields, List.mapM_map]
    refine each.congr ⟨.mapping, fun fit => ?_⟩
    cases fit with
    | mapping each => exact each

end Document

namespace RouteGroup

/-- The fields of a group that are there have their shapes. -/
structure Shaped (fields : Fields Document) : Prop where
  uses : ∀ d, Fields.get? fields "use" = some d → d.IsTexts
  base : ∀ d, Fields.get? fields "base" = some d → d.HasText
  lines : ∀ d, Fields.get? fields "paths" = some d → d.IsTexts

/-- What the fields of a group say, its lines not yet read as routes. -/
def ofFields (fields : Fields Document) : RouteGroup where
  uses := (Fields.get? fields "use").elim [] Document.wordings
  base := (Fields.get? fields "base").elim "" Document.wording
  lines := (Fields.get? fields "paths").elim [] Document.wordings

/-- The shape of one field. -/
def Fits (name : String) (d : Document) : Prop :=
  match name with
  | "base" => d.HasText
  | "paths" => d.IsTexts
  | "use" => d.IsTexts
  | _ => True

/-- The group with what one field says. -/
def put (g : RouteGroup) (name : String) (d : Document) : RouteGroup :=
  match name with
  | "base" => { g with base := d.wording }
  | "paths" => { g with lines := d.wordings }
  | "use" => { g with uses := d.wordings }
  | _ => g

theorem set_verdict (g : RouteGroup) (name : String) (d : Document) :
    Verdict (Fits name d) (g.put name d) (g.set name d.asText) := by
  unfold Fits put set
  split
  · exact d.readText_verdict.map fun s => { g with base := s }
  · exact d.readTexts_verdict.map fun xs => { g with lines := xs }
  · exact d.readTexts_verdict.map fun xs => { g with uses := xs }
  · simpa [*] using Verdict.fit trivial

theorem foldl_put {fields : Fields Document} (ascending : fields.Ascending) (g : RouteGroup) :
    fields.foldl (fun g f => g.put f.1 f.2) g =
      { g with
        uses := (Fields.get? fields "use").elim g.uses Document.wordings
        base := (Fields.get? fields "base").elim g.base Document.wording
        lines := (Fields.get? fields "paths").elim g.lines Document.wordings } := by
  induction fields generalizing g with
  | nil => rfl
  | cons f rest ih =>
    obtain ⟨name, d⟩ := f
    -- The name does not come back further down, so what is put there stays.
    have alone := ascending.get?_rest
    rw [List.foldl_cons, ih (List.pairwise_cons.mp ascending).2]
    unfold put
    split <;> simp_all [Fields.get?]

theorem Shaped.fits {fields : Fields Document} (shaped : Shaped fields) (name : String)
    (d : Document) : Fields.get? fields name = some d → Fits name d := by
  unfold Fits
  split
  · exact shaped.base d
  · exact shaped.lines d
  · exact shaped.uses d
  · exact fun _ => trivial

theorem shaped_iff {fields : Fields Document} (ascending : fields.Ascending) :
    (∀ f ∈ fields, Fits f.1 f.2) ↔ Shaped fields := by
  rw [Fields.forall_mem_iff ascending]
  exact ⟨fun each => ⟨each "use", each "base", each "paths"⟩, Shaped.fits⟩

end RouteGroup

namespace Document

/-- Null, or a mapping whose fields have their shapes. -/
inductive IsGroup : Document → Prop where
  | null : IsGroup (.scalar .null)
  | mapping {fields : Fields Document} (shaped : RouteGroup.Shaped fields) : IsGroup (.mapping fields)

/-- Null, or a sequence of groups. -/
inductive IsGroups : Document → Prop where
  | null : IsGroups (.scalar .null)
  | sequence {items : List Document} (each : ∀ d ∈ items, d.IsGroup) : IsGroups (.sequence items)

def group : Document → RouteGroup
  | .mapping fields => .ofFields fields
  | _ => {}

/-- The groups of a sequence, in their order. -/
def groups : Document → List RouteGroup
  | .sequence items => items.map group
  | _ => []

theorem group_verdict {d : Document} (ordered : d.Ordered) :
    Verdict d.IsGroup d.group (RouteGroup.ofDocument d.asText) := by
  cases d with
  | scalar s =>
    cases s with
    | null => exact .fit .null
    | bool | number | text => exact .misfit nofun _ _
  | sequence => exact .misfit nofun _ _
  | mapping fields =>
    have each : Verdict (∀ f ∈ fields, RouteGroup.Fits f.1 f.2) _ _ :=
      .foldlM (fun g name d => RouteGroup.set g name d.asText)
        (fun g f _ => g.set_verdict f.1 f.2) {}
    rw [RouteGroup.foldl_put ordered.1] at each
    simp only [asText, fieldsAsText_eq_map, RouteGroup.ofDocument, List.foldlM_map]
    refine each.congr ?_
    rw [RouteGroup.shaped_iff ordered.1]
    refine ⟨.mapping, fun fit => ?_⟩
    cases fit with
    | mapping shaped => exact shaped

theorem groups_verdict {d : Document} (ordered : d.Ordered) :
    Verdict d.IsGroups d.groups (d.asText.readList RouteGroup.ofDocument) := by
  cases d with
  | scalar s =>
    cases s with
    | null => exact .fit .null
    | bool | number | text => exact .misfit nofun _ _
  | mapping => exact .misfit nofun _ _
  | sequence items =>
    have each := Verdict.mapM fun d member => group_verdict (itemsOrdered_iff.mp ordered d member)
    simp only [asText, itemsAsText_eq_map, readList, List.mapM_map]
    refine each.congr ⟨.sequence, fun fit => ?_⟩
    cases fit with
    | sequence each => exact each

end Document

namespace Configuration

/-- The fields of a configuration that are there have their shapes. -/
structure Shaped (fields : Fields Document) : Prop where
  package : ∀ d, Fields.get? fields "package" = some d → d.HasText
  out : ∀ d, Fields.get? fields "out" = some d → d.HasText
  imports : ∀ d, Fields.get? fields "imports" = some d → d.IsTexts
  args : ∀ d, Fields.get? fields "args" = some d → d.IsTextFields
  vars : ∀ d, Fields.get? fields "vars" = some d → d.IsTextFields
  mux : ∀ d, Fields.get? fields "mux" = some d → d.HasText
  groups : ∀ d, Fields.get? fields "routes" = some d → d.IsGroups

/-- What the fields of a configuration say, the lines of its groups not yet read as routes. -/
def ofFields (fields : Fields Document) : Configuration where
  package := (Fields.get? fields "package").elim "" Document.wording
  out := (Fields.get? fields "out").elim "" Document.wording
  imports := (Fields.get? fields "imports").elim [] Document.wordings
  args := (Fields.get? fields "args").elim [] Document.wordingFields
  vars := (Fields.get? fields "vars").elim [] Document.wordingFields
  mux := (Fields.get? fields "mux").elim "Mux" Document.wording
  groups := (Fields.get? fields "routes").elim [] Document.groups

/-- The shape of one field. -/
def Fits (name : String) (d : Document) : Prop :=
  match name with
  | "args" => d.IsTextFields
  | "imports" => d.IsTexts
  | "mux" => d.HasText
  | "out" => d.HasText
  | "package" => d.HasText
  | "routes" => d.IsGroups
  | "vars" => d.IsTextFields
  | _ => True

/-- The configuration with what one field says. -/
def put (c : Configuration) (name : String) (d : Document) : Configuration :=
  match name with
  | "args" => { c with args := d.wordingFields }
  | "imports" => { c with imports := d.wordings }
  | "mux" => { c with mux := d.wording }
  | "out" => { c with out := d.wording }
  | "package" => { c with package := d.wording }
  | "routes" => { c with groups := d.groups }
  | "vars" => { c with vars := d.wordingFields }
  | _ => c

theorem set_verdict (c : Configuration) (name : String) {d : Document} (ordered : d.Ordered) :
    Verdict (Fits name d) (c.put name d) (c.set name d.asText) := by
  unfold Fits put set
  split
  · exact d.readTextFields_verdict.map fun x => { c with args := x }
  · exact d.readTexts_verdict.map fun x => { c with imports := x }
  · exact d.readText_verdict.map fun x => { c with mux := x }
  · exact d.readText_verdict.map fun x => { c with out := x }
  · exact d.readText_verdict.map fun x => { c with package := x }
  · exact (Document.groups_verdict ordered).map fun x => { c with groups := x }
  · exact d.readTextFields_verdict.map fun x => { c with vars := x }
  · simpa [*] using Verdict.fit trivial

theorem foldl_put {fields : Fields Document} (ascending : fields.Ascending) (c : Configuration) :
    fields.foldl (fun c f => c.put f.1 f.2) c =
      { package := (Fields.get? fields "package").elim c.package Document.wording
        out := (Fields.get? fields "out").elim c.out Document.wording
        imports := (Fields.get? fields "imports").elim c.imports Document.wordings
        args := (Fields.get? fields "args").elim c.args Document.wordingFields
        vars := (Fields.get? fields "vars").elim c.vars Document.wordingFields
        mux := (Fields.get? fields "mux").elim c.mux Document.wording
        groups := (Fields.get? fields "routes").elim c.groups Document.groups } := by
  induction fields generalizing c with
  | nil => rfl
  | cons f rest ih =>
    obtain ⟨name, d⟩ := f
    -- The name does not come back further down, so what is put there stays.
    have alone := ascending.get?_rest
    rw [List.foldl_cons, ih (List.pairwise_cons.mp ascending).2]
    unfold put
    split <;> simp_all [Fields.get?]

theorem Shaped.fits {fields : Fields Document} (shaped : Shaped fields) (name : String)
    (d : Document) : Fields.get? fields name = some d → Fits name d := by
  unfold Fits
  split
  · exact shaped.args d
  · exact shaped.imports d
  · exact shaped.mux d
  · exact shaped.out d
  · exact shaped.package d
  · exact shaped.groups d
  · exact shaped.vars d
  · exact fun _ => trivial

theorem shaped_iff {fields : Fields Document} (ascending : fields.Ascending) :
    (∀ f ∈ fields, Fits f.1 f.2) ↔ Shaped fields := by
  rw [Fields.forall_mem_iff ascending]
  exact ⟨fun each => ⟨each "package", each "out", each "imports", each "args", each "vars",
    each "mux", each "routes"⟩, Shaped.fits⟩

/-- The fields are read exactly where they have their shapes, and then as they are written. -/
theorem ofTextDocument_verdict {fields : Fields Document}
    (ordered : Document.Ordered (.mapping fields)) :
    Verdict (Shaped fields) (ofFields fields) (ofTextDocument (Document.mapping fields).asText) := by
  have below := Document.fieldsOrdered_iff.mp ordered.2
  have each : Verdict (∀ f ∈ fields, Fits f.1 f.2) _ _ :=
    .foldlM (fun c name d => set c name d.asText)
      (fun c f member => c.set_verdict f.1 (below f member)) {}
  rw [foldl_put ordered.1, shaped_iff ordered.1] at each
  simp only [Document.asText, Document.fieldsAsText_eq_map, ofTextDocument, List.foldlM_map]
  exact each

end Configuration
end RouteForge
