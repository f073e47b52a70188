import RouteForge.Build
import RouteForge.Proofs.Document.Conversion

/-! What a configuration hangs on. The documents of a tree may be converted to texts one by one, before
they are merged, or as one document behind it. Trees whose files say the same in texts therefore come
to one configuration, or to one error. -/
namespace RouteForge

/-- Scalars count by their texts from the start, so converting them first changes nothing. -/
theorem Configuration.ofDocument_asText (d : Document) : ofDocument d.asText = ofDocument d := by
  unfold ofDocument
  rw [Document.asText_asText]

namespace IncludeTree

open Document (asText)

mutual

/-- The files of a tree merged, each of them by its texts. -/
def mergedAsText : IncludeTree → Except Error Document
  | node p c ts => do
    let own ← decode p c
    let below ← mergedAsTextOnto .empty ts
    return below.merge own.asText

def mergedAsTextOnto (d : Document) : List IncludeTree → Except Error Document
  | [] => .ok d
  | t :: rest => do
    let next ← t.mergedAsText
    mergedAsTextOnto (d.merge next) rest

end

mutual

/-- Trees of one structure whose files have the same texts, or the same error. -/
inductive Alike : IncludeTree → IncludeTree → Prop where
  | node {p q c d ts us} (own : (decode p c).map asText = (decode q d).map asText)
      (below : AlikeAll ts us) : Alike (node p c ts) (node q d us)

inductive AlikeAll : List IncludeTree → List IncludeTree → Prop where
  | nil : AlikeAll [] []
  | cons {t u ts us} (first : Alike t u) (rest : AlikeAll ts us) : AlikeAll (t :: ts) (u :: us)

end

/-- Of the file itself nothing counts but its texts. -/
theorem mergedAsText_node (p : Path) (c : String) (ts : List IncludeTree) :
    (node p c ts).mergedAsText = do
      let own ← (decode p c).map asText
      let below ← mergedAsTextOnto .empty ts
      return below.merge own := by
  rw [mergedAsText]
  cases decode p c <;> rfl

mutual

theorem mergedAsText_eq : ∀ t : IncludeTree, t.mergedAsText = t.merged.map asText
  | .node p c ts => by
    have onto : mergedAsTextOnto .empty ts = (mergedOnto .empty ts).map asText :=
      mergedAsTextOnto_eq .empty ts
    rw [mergedAsText, merged, onto]
    cases decode p c with
    | error e => rfl
    | ok own =>
      cases mergedOnto .empty ts with
      | error e => rfl
      | ok below => exact congrArg Except.ok (Document.asText_merge below own).symm

/-- A document that trees are merged into may be converted before or behind them. -/
theorem mergedAsTextOnto_eq : ∀ (d : Document) (ts : List IncludeTree),
    mergedAsTextOnto d.asText ts = (mergedOnto d ts).map asText
  | _, [] => rfl
  | d, t :: rest => by
    rw [mergedAsTextOnto, mergedOnto, mergedAsText_eq t]
    cases t.merged with
    | error e => rfl
    | ok next =>
      have onward := mergedAsTextOnto_eq (d.merge next) rest
      rw [Document.asText_merge] at onward
      exact onward

end

mutual

theorem Alike.mergedAsText : ∀ {t u : IncludeTree}, t.Alike u → t.mergedAsText = u.mergedAsText
  | .node _ _ _, .node _ _ _, .node own below => by
    rw [mergedAsText_node, mergedAsText_node, own, AlikeAll.mergedAsTextOnto below .empty]

theorem AlikeAll.mergedAsTextOnto : ∀ {ts us : List IncludeTree}, AlikeAll ts us → ∀ d : Document,
    mergedAsTextOnto d ts = mergedAsTextOnto d us
  | [], [], .nil, _ => rfl
  | t :: ts, u :: us, .cons first rest, d => by
    rw [IncludeTree.mergedAsTextOnto, IncludeTree.mergedAsTextOnto, Alike.mergedAsText first]
    exact congrArg (u.mergedAsText >>= ·) (funext fun next => AlikeAll.mergedAsTextOnto rest _)

end

/-- The configuration of a tree is read from its texts alone. -/
theorem configuration_eq (t : IncludeTree) :
    Build.configuration t = t.mergedAsText >>= Configuration.ofDocument := by
  rw [mergedAsText_eq, Build.configuration]
  cases t.merged with
  | error e => rfl
  | ok d => exact (Configuration.ofDocument_asText d).symm

/-- The value of the texts of a document reads again, as a document of the same structure that has a text
for every scalar but null, and of which the same is read once more. Documents may be merged before or
after they are converted, and so may all the files of a tree, as a whole or each by itself. Trees whose
files have the same texts are configured alike. -/
theorem conversion_commutes {a b : Document} (first : a.Ordered) (second : b.Ordered) :
    a.converted = .ok a.asText ∧ b.converted = .ok b.asText ∧
    Document.Conversion a a.asText ∧ a.asText.converted = .ok a.asText ∧
    (a.merge b).converted = .ok (a.asText.merge b.asText) ∧
    (∀ t : IncludeTree, t.mergedAsText = t.merged.map asText ∧
      Build.configuration t = t.mergedAsText >>= Configuration.ofDocument) ∧
    ∀ t u : IncludeTree, t.Alike u → Build.configuration t = Build.configuration u := by
  refine ⟨Document.converted_eq first, Document.converted_eq second, Document.conversion_asText a,
    ?_, ?_, fun t => ⟨mergedAsText_eq t, configuration_eq t⟩, fun t u alike => ?_⟩
  · rw [Document.converted_eq first.asText, Document.asText_asText]
  · rw [Document.converted_eq (first.merge second), Document.asText_merge]
  · rw [configuration_eq, configuration_eq, alike.mergedAsText]

/-- A number, a truth value and null. -/
def plain : Document :=
  .mapping [("mux", .scalar .null), ("vars", .mapping [("debug", .scalar (.bool true)),
    ("retries", .scalar (.number (.integer 3)))])]

/-- A list of a number in place of the truth value. -/
def debugging : Document :=
  .mapping [("vars", .mapping [("debug", .sequence [.scalar (.number (.integer 1))])])]

/-- A file with plain scalars, and one with their texts in quotes. -/
def plainFile : IncludeTree :=
  node (Path.ofText "muxc.yaml") "package: 0.50\nvars:\n  debug: true\n  retries: 3\n" []

def quotedFile : IncludeTree :=
  node (Path.ofText "muxc.yaml") "package: '0.5'\nvars:\n  debug: 'true'\n  retries: '3'\n" []

theorem conversion_commutes_plain : plain.Ordered ∧ debugging.Ordered ∧
    (plain.merge debugging).converted = .ok (.mapping [("mux", .scalar .null), ("vars", .mapping
      [("debug", .sequence [.scalar (.text "1")]), ("retries", .scalar (.text "3"))])]) ∧
    Build.configuration plainFile = Build.configuration quotedFile := by
  have first : plain.Ordered := by
    simp only [plain, Document.Ordered, Document.FieldsOrdered]
    decide
  have second : debugging.Ordered := by
    simp only [debugging, Document.Ordered, Document.FieldsOrdered, Document.ItemsOrdered]
    decide
  obtain ⟨-, -, -, -, merged, -, same⟩ := conversion_commutes first second
  refine ⟨first, second, ?_, same plainFile quotedFile ?_⟩
  · rw [merged]
    decide +kernel
  · exact .node (by decide +kernel) .nil

end IncludeTree
end RouteForge
