import RouteForge.Proofs.Include.Openings
import RouteForge.Proofs.Include.Unfolding
import RouteForge.Proofs.Text.Lines

/-! The lines of a file, each taken out as a directive or kept. The content is put together from the
lines that are kept, and when it is read again each of them has lost no more than a carriage return at
its end. Blanks at the ends of a line do not count for whether it is a directive, so no directive comes
up among the lines that were kept. -/
namespace RouteForge.Include

/-- Lines parted in their order into the ones that are kept and the targets of the others. -/
inductive Parted : List (List Char) → List (List Char) → List Path → Prop where
  | done : Parted [] [] []
  | kept {line : List Char} {lines kept : List (List Char)} {targets : List Path}
      (plain : target? line = none) (behind : Parted lines kept targets) :
      Parted (line :: lines) (line :: kept) targets
  | directive {line target : List Char} {lines kept : List (List Char)} {targets : List Path}
      (found : target? line = some target) (behind : Parted lines kept targets) :
      Parted (line :: lines) kept (⟨target⟩ :: targets)

/-- There is one way to part lines. -/
theorem parted_iff {lines kept : List (List Char)} {targets : List Path} :
    Parted lines kept targets ↔ kept = lines.filter (fun line => (target? line).isNone) ∧
      targets = lines.filterMap fun line => (target? line).map Path.mk := by
  constructor
  · intro parted
    induction parted with
    | done => exact ⟨rfl, rfl⟩
    | kept plain _ ih =>
      obtain ⟨rfl, rfl⟩ := ih
      simp [plain]
    | directive found _ ih =>
      obtain ⟨rfl, rfl⟩ := ih
      simp [found]
  · rintro ⟨rfl, rfl⟩
    induction lines with
    | nil => exact .done
    | cons line lines ih =>
      cases found : target? line with
      | none => simpa [found] using Parted.kept found ih
      | some target => simpa [found] using Parted.directive found ih

/-- Lines without directives are all kept. -/
theorem parted_of_plain {lines : List (List Char)} (plain : ∀ line ∈ lines, target? line = none) :
    Parted lines lines [] := by
  induction lines with
  | nil => exact .done
  | cons line lines ih =>
    obtain ⟨here, others⟩ := List.forall_mem_cons.mp plain
    exact .kept here (ih others)

namespace Parted

variable {lines kept : List (List Char)} {targets : List Path}

theorem plain (parted : Parted lines kept targets) : ∀ line ∈ kept, target? line = none := by
  induction parted with
  | done => simp
  | kept plain _ ih => exact List.forall_mem_cons.mpr ⟨plain, ih⟩
  | directive _ _ ih => exact ih

theorem sublist (parted : Parted lines kept targets) : kept.Sublist lines := by
  induction parted with
  | done => exact .slnil
  | kept _ _ ih => exact ih.cons_cons _
  | directive _ _ ih => exact ih.cons _

end Parted

/-- A directive is recognised on the trimmed line, and a carriage return is a blank. -/
theorem target?_chomp (line : List Char) : target? (Text.chomp line) = target? line := by
  unfold target?
  rw [Text.trim_chomp]

/-- Lines that were kept are kept when they are read again, whichever terminators they had. -/
theorem Parted.again {text : List Char} {lines kept again : List (List Char)} {targets : List Path}
    (lined : Text.Lined text lines) (parted : Parted lines kept targets)
    (rescanned : Text.Lined (Text.unlines kept) again) : Parted again again [] := by
  have unbroken : ∀ line ∈ kept, '\n' ∉ line :=
    fun line member => lined.unbroken line (parted.sublist.subset member)
  rw [Text.lined_iff, Text.lines_unlines unbroken] at rescanned
  apply parted_of_plain
  intro line member
  rw [rescanned] at member
  obtain ⟨before, inside, rfl⟩ := List.mem_map.mp member
  rw [target?_chomp]
  exact parted.plain before inside

/-- A file is read as text before its directives are followed, and its lines are parted. Bytes that
are no text stop the search with an error of their file, and nothing has been opened. Otherwise each
line is kept or taken out as a directive. The content of the file is the lines that are kept, in their
order and each ended by a line feed, and it has one child for each target, in their order. The content
is empty or ends in a line feed, and none of its own lines is a directive. -/
theorem file_lines_parted (t : FileTree) (base : Path) (chain : Chain) (target : Path)
    (bytes : ByteArray) (off : ∀ p ∈ chain, p.same (place base target) = false) :
    (¬ bytes.IsValidUTF8 →
      resolve t base chain target bytes = .error (.decode (.file (place base target)) .notUtf8) ∧
        openings t base chain target bytes = []) ∧
    ∀ text : String, bytes = text.toUTF8 → ∃ lines kept targets,
      (∀ ls, Text.Lined text.toList ls ↔ ls = lines) ∧ Parted lines kept targets ∧
      resolve t base chain target bytes = (do
        let trees ← targets.mapM (follow t base (chain ++ [place base target]))
        return .node (place base target) (String.ofList (Text.unlines kept)) trees) ∧
      (∀ tree, resolve t base chain target bytes = .ok tree →
        tree.includes.map IncludeTree.path = targets.map (place base) ∧
          tree.paths = place base target :: openings t base chain target bytes) ∧
      (∀ again, Text.Lined (Text.unlines kept) again → Parted again again []) ∧
      (Text.unlines kept = [] ∨ (Text.unlines kept).getLast? = some '\n') := by
  have check := check_eq_ok_iff.mpr off
  constructor
  · intro broken
    have illegible : sourceOf (place base target) bytes =
        .error (.decode (.file (place base target)) .notUtf8) :=
      sourceOf_eq_error_iff.mpr ⟨dif_neg broken, rfl⟩
    have stopped := recorded_resolve t base chain target bytes
    unfold depth at stopped
    rw [recorded_illegible check illegible] at stopped
    obtain ⟨answer, record⟩ := Prod.mk.inj (Option.some.inj stopped)
    exact ⟨answer.symm, record.symm⟩
  · rintro text rfl
    have source := sourceOf_toUTF8 (place base target) text
    have lined := Text.lined_lines text.toList
    have parted : Parted (Text.lines text.toList) _ _ := parted_iff.mpr ⟨rfl, rfl⟩
    refine ⟨_, _, _, fun ls => Text.lined_iff, parted, ?_, fun tree resolved => ⟨?_, ?_⟩,
      fun again => parted.again lined, Text.unlines_ends _⟩
    · rw [resolve_eq, check, source]
      rfl
    · obtain ⟨path, content, includes⟩ := tree
      obtain ⟨rfl, -, same, said, -, below⟩ := resolve_eq_ok_iff.mp resolved
      rw [source] at said
      cases said
      exact below.map_path
    · exact paths_of_resolve resolved

def returnsText : String := "a: 1\r\r\n!include b.yaml\r\n\r\nc: 2\r"

/-- Carriage returns of all kinds, and no line feed at the end. -/
def returns : FileTree :=
  FileTree.ofTexts [("muxc.yaml", returnsText), ("b.yaml", "out: gen\n")]

/-- A directive in front of bytes that are no text. -/
def illegible : ByteArray := "!include b.yaml\n".toUTF8 ++ ⟨#[0xe9]⟩

/-- One carriage return of each line goes with its line feed, so the content reads with fewer of them
again. -/
theorem file_lines_parted_returns :
    (resolve returns ⟨[]⟩ [Path.ofText "main.yaml"] (Path.ofText "muxc.yaml") illegible =
        .error (.decode (.file (Path.ofText "muxc.yaml")) .notUtf8) ∧
      openings returns ⟨[]⟩ [Path.ofText "main.yaml"] (Path.ofText "muxc.yaml") illegible = []) ∧
    ∃ tree, resolve returns ⟨[]⟩ [Path.ofText "main.yaml"] (Path.ofText "muxc.yaml")
        returnsText.toUTF8 = .ok tree ∧
      tree.content = "a: 1\r\n\nc: 2\r\n" ∧
      tree.includes.map IncludeTree.path = [Path.ofText "b.yaml"] ∧
      openings returns ⟨[]⟩ [Path.ofText "main.yaml"] (Path.ofText "muxc.yaml")
        returnsText.toUTF8 = [Path.ofText "b.yaml"] ∧
      ∀ again, Text.Lined tree.content.toList again → Parted again again [] := by
  have off : ∀ p ∈ [Path.ofText "main.yaml"], p.same (place ⟨[]⟩ (Path.ofText "muxc.yaml")) = false := by
    decide
  have here : place ⟨[]⟩ (Path.ofText "muxc.yaml") = Path.ofText "muxc.yaml" := by decide
  constructor
  · have stopped := (file_lines_parted returns _ _ _ illegible off).1 (by decide +kernel)
    rwa [here] at stopped
  · obtain ⟨lines, kept, targets, lined, parted, -, whole, rescanned, -⟩ :=
      (file_lines_parted returns _ _ _ _ off).2 returnsText rfl
    obtain rfl := (lined _).mp (Text.lined_lines _)
    obtain ⟨rfl, rfl⟩ := parted_iff.mp parted
    have built : (resolve returns ⟨[]⟩ [Path.ofText "main.yaml"] (Path.ofText "muxc.yaml")
        returnsText.toUTF8).map (fun tree => (tree.content, tree.paths)) =
          .ok ("a: 1\r\n\nc: 2\r\n", ["muxc.yaml", "b.yaml"].map Path.ofText) := by
      decide +kernel
    cases resolved : resolve returns ⟨[]⟩ [Path.ofText "main.yaml"] (Path.ofText "muxc.yaml")
        returnsText.toUTF8 with
    | error e =>
      rw [resolved] at built
      cases built
    | ok tree =>
      rw [resolved] at built
      obtain ⟨content, paths⟩ := Prod.mk.inj (Except.ok.inj built)
      obtain ⟨children, order⟩ := whole tree resolved
      rw [paths, here] at order
      refine ⟨tree, rfl, content, ?_, (List.cons.inj order).2.symm, ?_⟩
      · rw [children]
        decide +kernel
      · have kept : Text.unlines ((Text.lines returnsText.toList).filter fun line =>
            (target? line).isNone) = "a: 1\r\n\nc: 2\r\n".toList := by
          decide +kernel
        rw [content, ← kept]
        exact rescanned

end RouteForge.Include
