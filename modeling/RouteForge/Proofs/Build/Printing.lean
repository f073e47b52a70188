import RouteForge.Invocation
import RouteForge.Proofs.Build.Stages
import RouteForge.Proofs.Document.Nesting
import RouteForge.Proofs.Document.RoundTrip
import RouteForge.Proofs.Include.Folding

/-! What is printed for a document is read as the same document. Of the printed text this takes one
thing on trust, that a plain enough value is read as it was written; that documents have such values,
and that every merged one is within the limit, is shown here. -/
namespace RouteForge

/-- Writing a value and reading the text gives the value, if it is bare and not nested too deep. -/
def Yaml.Faithful (v : Value) : Prop :=
  v.Bare → v.nesting ≤ nestingLimit → read (write v) = .ok v

theorem Document.ofText_toYaml {d : Document} (ordered : d.Ordered) (top : d.shape = .mapping)
    (within : d.nesting ≤ Yaml.nestingLimit) (faithful : Yaml.Faithful d.toValue) :
    ofText d.toYaml = .ok d := by
  refine ofText_of_read ordered top (faithful (bare_toValue ordered) ?_)
  rw [nesting_toValue]
  exact within

namespace IncludeTree

theorem nesting_decode {p : Path} {c : String} {d : Document} (decoded : decode p c = .ok d) :
    d.nesting ≤ Yaml.nestingLimit := by
  unfold decode at decoded
  cases read : Document.ofText c with
  | error e => rw [read] at decoded; cases decoded
  | ok own =>
    rw [read] at decoded
    cases decoded
    exact Document.nesting_of_ofText read

mutual

/-- Every file is read within the limit, and merging does not leave it. -/
theorem nesting_merged : ∀ {t : IncludeTree} {d : Document}, t.merged = .ok d →
    d.nesting ≤ Yaml.nestingLimit
  | .node _ _ _, _, whole => by
    obtain ⟨own, below, decoded, onto, rfl⟩ := merged_node_eq_ok whole
    exact Document.nesting_merge (nesting_mergedOnto (by decide) onto) (nesting_decode decoded)

theorem nesting_mergedOnto : ∀ {ts : List IncludeTree} {b d : Document},
    b.nesting ≤ Yaml.nestingLimit → mergedOnto b ts = .ok d → d.nesting ≤ Yaml.nestingLimit
  | [], _, _, start, whole => by
    cases whole
    exact start
  | _ :: _, _, _, start, whole => by
    obtain ⟨next, merged, onto⟩ := mergedOnto_cons_eq_ok whole
    exact nesting_mergedOnto (Document.nesting_merge start (nesting_merged merged)) onto

end

end IncludeTree

namespace Build

theorem printMerged_of_merged [Yaml.Wording] {b : Build} {files : FileTree} {tree : IncludeTree} {d : Document}
    (resolved : b.resolve files = .ok tree) (merged : tree.merged = .ok d) :
    (Invocation.printMerged b files).stdout = d.toYaml.toUTF8 ∧
      (Invocation.printMerged b files).exit? = some 0 := by
  have written : b.mergedYaml files = .ok d.toYaml := by
    unfold mergedYaml
    rw [resolved]
    simp only [bind, Except.bind, merged]
    rfl
  unfold Invocation.printMerged
  rw [written]
  exact ⟨rfl, rfl⟩

/-- A document is the one that its value stands for, and where it is a mapping within the limit, also
the one that its printed text holds. A merged document always is, so what is printed for the files
is the text of a document with the same configuration as the files, or the same error. -/
theorem printed_reads_back [Yaml.Wording] :
    (∀ d : Document, d.Ordered → Document.ofValue d.toValue = .ok d) ∧
    (∀ d : Document, d.Ordered → d.shape = .mapping → d.nesting ≤ Yaml.nestingLimit →
      Yaml.Faithful d.toValue → Document.ofText d.toYaml = .ok d) ∧
    ∀ (b : Build) (files : FileTree) (tree : IncludeTree) (d : Document),
      b.resolve files = .ok tree → tree.merged = .ok d → Yaml.Faithful d.toValue →
      ∃ text, (Invocation.printMerged b files).stdout = text.toUTF8 ∧
        (Invocation.printMerged b files).exit? = some 0 ∧
        Document.ofText text = .ok d ∧ Configuration.ofDocument d = configuration tree := by
  refine ⟨fun d => Document.ofValue_toValue, fun d => Document.ofText_toYaml, ?_⟩
  intro b files tree d resolved merged faithful
  obtain ⟨printed, exit⟩ := printMerged_of_merged resolved merged
  obtain ⟨ordered, top⟩ := IncludeTree.merged_sound merged
  refine ⟨d.toYaml, printed, exit, ?_, ?_⟩
  · exact Document.ofText_toYaml ordered top (IncludeTree.nesting_merged merged) faithful
  · unfold configuration
    rw [merged]
    rfl

/-- Keys that are no texts, and collections that hold nothing. -/
def keyedFiles : FileTree := FileTree.ofTexts
  [("muxc.yaml", "1: []\ntrue: ~\n!include more.yaml\n"), ("more.yaml", "~: {1: {}}\n1: [{}, ~]\n")]

def keyed : Document := .mapping
  [("1", .sequence [.mapping [], .scalar .null]), ("null", .mapping [("1", .mapping [])]),
    ("true", .scalar .null)]

theorem printed_reads_back_keyed : ∃ text,
    (Invocation.printMerged sole keyedFiles).stdout = text.toUTF8 ∧
    Document.ofText text = .ok keyed ∧ Document.ofText keyed.toYaml = .ok keyed := by
  have merged : (sole.resolve keyedFiles >>= IncludeTree.merged) = .ok keyed := by decide +kernel
  cases resolved : sole.resolve keyedFiles with
  | error e => rw [resolved] at merged; cases merged
  | ok tree =>
    rw [resolved] at merged
    have faithful : Yaml.Faithful keyed.toValue := fun _ _ => by decide +kernel
    obtain ⟨ordered, top⟩ := IncludeTree.merged_sound merged
    obtain ⟨-, texts, prints⟩ := printed_reads_back
    obtain ⟨text, printed, -, read, -⟩ := prints sole keyedFiles tree keyed resolved merged faithful
    exact ⟨text, printed, read, texts keyed ordered top (by decide) faithful⟩

end Build
end RouteForge
