import RouteForge.Proofs.Text.Quoted
import RouteForge.RoutesModule

/-! The keys of a routes module. Each key stands in it as one literal, from which it can be read, so the
module tells any two keys apart. Which characters are hidden does not matter for that. -/
namespace RouteForge

theorem Text.toList_literal (s : String) : (literal s).toList = quote isHidden s.toList := by
  rw [literal, String.toList_ofList]

/-- Every character of a literal can be seen. -/
theorem Text.not_hidden_of_mem_literal {s : String} {x : Char} (member : x ∈ (literal s).toList) :
    isHidden x = false := by
  rw [toList_literal] at member
  obtain ⟨-, -, seen⟩ := mem_quote member
  cases hidden : isHidden x with
  | false => rfl
  | true =>
    have visible : Visible x := seen hidden
    unfold Visible at visible
    simp [isHidden, visible.1, visible.2] at hidden

namespace RoutesModule

/-- The line of the key of a registration. -/
def keyLine (r : Registration) : String := "        " ++ Text.literal r.key ++ ","

theorem keyLine_mem_lines {c : Configuration} {r : Registration} (member : r ∈ registrations c)
    (s : Stamp) : keyLine r ∈ lines c s := by
  have own : keyLine r ∈ r.lines := by simp [keyLine, Registration.lines]
  have registered : keyLine r ∈ (registrations c).flatMap Registration.lines :=
    List.mem_flatMap.mpr ⟨r, member, own⟩
  simp [lines, body, registered]

/-- What is quoted is one literal on one line: pieces between two quotes, each of which spells one
character, where every other quote and every backslash is part of an escape. It is read back as what was
quoted, whatever follows it and whichever characters are special, so different texts have different
literals. In a module the key of every registration stands in such a literal, in a line of its own. -/
theorem keys_read_back (special : Char → Bool) (cs : List Char) :
    (∃ pieces, Text.quote special cs = '"' :: (pieces.flatten ++ ['"']) ∧
      List.Forall₂ Text.Spelling pieces cs ∧
      '"' ∉ Text.unescaped pieces.flatten ∧ '\\' ∉ Text.unescaped pieces.flatten) ∧
    (∀ x ∈ Text.quote special cs, x ≠ '\n' ∧ x ≠ '\r') ∧
    (∀ rest, Text.readLiteral? (Text.quote special cs ++ rest) = some (cs, rest)) ∧
    (∀ other ds, Text.quote other ds = Text.quote special cs → ds = cs) ∧
    (∀ (c : Configuration) (s : Stamp), ∀ r ∈ registrations c, keyLine r ∈ lines c s ∧
      Text.readLiteral? ((keyLine r).toList.drop 8) = some (r.key.toList, [',']) ∧
      ∀ x ∈ (Text.literal r.key).toList, Text.isHidden x = false) ∧
    ∀ key other : String, Text.literal key = Text.literal other → key = other := by
  have spellings := Text.spellings_escape special cs
  obtain ⟨no_quote, no_backslash⟩ := Text.unescaped_pieces spellings
  refine ⟨⟨_, ?_, spellings, no_quote, no_backslash⟩, ?_, Text.readLiteral?_quote special cs, ?_, ?_,
    ?_⟩
  · simp [Text.quote, List.flatMap_def]
  · intro x member
    obtain ⟨no_feed, no_return, -⟩ := Text.mem_quote member
    exact ⟨no_feed, no_return⟩
  · intro other ds same
    exact Text.quote_injective same
  · intro c s r member
    refine ⟨keyLine_mem_lines member s, ?_, fun x => Text.not_hidden_of_mem_literal⟩
    have line : (keyLine r).toList.drop 8 = (Text.literal r.key).toList ++ [','] := by
      simp [keyLine, String.toList_append]
    rw [line, Text.toList_literal]
    exact Text.readLiteral?_quote _ _ _
  · intro key other same
    apply String.toList_inj.mp
    have quoted : Text.quote Text.isHidden key.toList = Text.quote Text.isHidden other.toList := by
      rw [← Text.toList_literal, ← Text.toList_literal, same]
    exact Text.quote_injective quoted

end RoutesModule
end RouteForge
