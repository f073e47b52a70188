import RouteForge.Yaml.Reader

/-! How deep collections stand in each other. No text reads as a value that is nested deeper than the
reader allows, whatever its aliases stand for. -/
namespace RouteForge.Yaml

namespace Value

mutual

/-- How many collections stand in each other. Tags do not count. -/
def nesting : Value → Nat
  | .sequence items => itemsNesting items + 1
  | .mapping entries => entriesNesting entries + 1
  | .tagged _ content => nesting content
  | .null | .bool _ | .number _ | .string _ => 0

def itemsNesting : List Value → Nat
  | [] => 0
  | v :: rest => max v.nesting (itemsNesting rest)

def entriesNesting : List (Value × Value) → Nat
  | [] => 0
  | (k, v) :: rest => max (max k.nesting v.nesting) (entriesNesting rest)

end

variable {n : Nat}

theorem itemsNesting_le_iff {items : List Value} :
    itemsNesting items ≤ n ↔ ∀ v ∈ items, v.nesting ≤ n := by
  induction items with
  | nil => simp [itemsNesting]
  | cons v rest ih => rw [itemsNesting, Nat.max_le, ih, List.forall_mem_cons]

theorem entriesNesting_le_iff {entries : List (Value × Value)} :
    entriesNesting entries ≤ n ↔ ∀ e ∈ entries, e.1.nesting ≤ n ∧ e.2.nesting ≤ n := by
  induction entries with
  | nil => simp [entriesNesting]
  | cons e rest ih => rw [entriesNesting, Nat.max_le, Nat.max_le, ih, List.forall_mem_cons]

mutual

/-- Without tags, and with texts for keys, each of them once. -/
def Bare : Value → Prop
  | .sequence items => ItemsBare items
  | .mapping entries => (entries.map Prod.fst).Nodup ∧ EntriesBare entries
  | .tagged _ _ => False
  | .null | .bool _ | .number _ | .string _ => True

def ItemsBare : List Value → Prop
  | [] => True
  | v :: rest => v.Bare ∧ ItemsBare rest

def EntriesBare : List (Value × Value) → Prop
  | [] => True
  | (.string _, v) :: rest => v.Bare ∧ EntriesBare rest
  | _ :: _ => False

end

end Value

namespace Expand

variable {α β : Type} {P : α → Prop} {Q : β → Prop}

/-- Whatever it gives, from whatever it starts, has the property. -/
def Yields (P : α → Prop) (x : Expand α) : Prop :=
  ∀ used a after, x used = .ok (a, after) → P a

namespace Yields

theorem pure {a : α} (held : P a) : Yields P (Pure.pure a) := by
  intro used b after given
  cases given
  exact held

theorem throw (e : Fault) : Yields P (MonadExcept.throw e) := nofun

theorem bind {x : Expand α} {f : α → Expand β} (first : Yields P x)
    (next : ∀ a, P a → Yields Q (f a)) : Yields Q (x >>= f) := by
  intro used b after given
  cases began : x used with
  | error e => simp [Bind.bind, StateT.bind, began, Except.bind] at given
  | ok r =>
    simp only [Bind.bind, StateT.bind, began, Except.bind] at given
    exact next r.1 (first used r.1 r.2 began) r.2 b after given

theorem lift {x : Except Fault α} (held : ∀ a, x = .ok a → P a) :
    Yields P (liftM x : Expand α) := by
  intro used a after given
  cases x with
  | error e => cases given
  | ok b =>
    cases given
    exact held _ rfl

theorem trivial {x : Expand α} : Yields (fun _ => True) x := fun _ _ _ _ => .intro

theorem mapM {f : β → Expand α} (each : ∀ b, Yields P (f b)) (bs : List β) :
    Yields (fun as => ∀ a ∈ as, P a) (bs.mapM f) := by
  induction bs with
  | nil => exact pure (by simp)
  | cons b bs ih =>
    rw [List.mapM_cons]
    refine (each b).bind fun a held => ih.bind fun as below => pure ?_
    exact List.forall_mem_cons.mpr ⟨held, below⟩

end Yields
end Expand

open Expand (Yields)

theorem nesting_of_value {text : String} {v : Value} (read : Plain.value text = .ok v) :
    v.nesting = 0 := by
  unfold Plain.value at read
  cases whole : Plain.integerValue? text.toList with
  | error e =>
    simp only [whole, bind, Except.bind] at read
    split at read
    · cases read; rfl
    · split at read <;> cases read; rfl
  | ok n? =>
    simp only [whole, bind, Except.bind] at read
    split at read
    · cases read; rfl
    · repeat' split at read
      all_goals cases read; rfl

/-- Scalars are not nested, whatever their tags make of them. -/
theorem nesting_of_plainValue {style : Style} {text : String} {v : Value}
    (read : plainValue style text = .ok v) : v.nesting = 0 := by
  unfold plainValue at read
  split at read
  · exact nesting_of_value read
  · cases read
    rfl

theorem nesting_of_forced {tag : String} {v? : Option Value} {v : Value}
    (read : forced tag v? = .ok v) (flat : ∀ w ∈ v?, w.nesting = 0) : v.nesting = 0 := by
  cases v? with
  | none => cases read
  | some w =>
    cases read
    exact flat _ rfl

theorem nesting_of_mem_map {α : Type} {f : α → Value} (flat : ∀ x, (f x).nesting = 0)
    {x? : Option α} : ∀ w ∈ x?.map f, w.nesting = 0 := by
  intro w member
  obtain ⟨x, -, rfl⟩ := Option.map_eq_some_iff.mp member
  exact flat x

theorem nesting_of_scalarValue {tag : Option String} {style : Style} {text : String} {v : Value}
    (read : scalarValue tag style text = .ok v) : v.nesting = 0 := by
  unfold scalarValue at read
  cases tag with
  | none => exact nesting_of_plainValue read
  | some tag =>
    dsimp only at read
    split at read
    · cases plain : plainValue style text with
      | error e => rw [plain] at read; cases read
      | ok w =>
        rw [plain] at read
        cases read
        exact nesting_of_plainValue (v := w) plain
    · split at read
      · exact nesting_of_forced read (nesting_of_mem_map fun _ => rfl)
      · split at read
        · cases whole : Plain.integerValue? text.toList with
          | error e => rw [whole] at read; cases read
          | ok n? =>
            rw [whole] at read
            exact nesting_of_forced read (nesting_of_mem_map fun _ => rfl)
        · split at read
          · exact nesting_of_forced read (nesting_of_mem_map fun _ => rfl)
          · split at read
            · refine nesting_of_forced read fun w member => ?_
              split at member <;> cases member
              rfl
            · cases read
              rfl

theorem marked_eq_ok_iff {α : Type} {mark : Mark} {x : Except Problem α} {a : α} :
    marked mark x = .ok a ↔ x = .ok a := by
  cases x with
  | error problem => exact ⟨nofun, nofun⟩
  | ok b =>
    change Except.ok b = Except.ok a ↔ _
    rw [Except.ok.injEq, Except.ok.injEq]

theorem nesting_withTag (tag : Option String) (v : Value) : (withTag tag v).nesting = v.nesting := by
  unfold withTag
  split <;> rfl

theorem yields_entriesOf {mark : Mark} {inner : Node → Expand Value} {n : Nat}
    (each : ∀ node, Yields (fun v => v.nesting ≤ n) (inner node)) (entries : List (Node × Node))
    {read : List (Value × Value)} (before : ∀ e ∈ read, e.1.nesting ≤ n ∧ e.2.nesting ≤ n) :
    Yields (fun es => ∀ e ∈ es, e.1.nesting ≤ n ∧ e.2.nesting ≤ n)
      (entriesOf mark inner entries read) := by
  induction entries generalizing read with
  | nil => exact .pure (by simpa using before)
  | cons e rest ih =>
    obtain ⟨k, v⟩ := e
    unfold entriesOf
    refine (each k).bind fun key flat => ?_
    split
    · exact (Yields.throw _).bind (P := fun _ => False) (fun _ no => no.elim)
    · refine (each v).bind fun value below => ih ?_
      exact List.forall_mem_cons.mpr ⟨⟨flat, below⟩, before⟩

theorem yields_contentOf_none (n : Node) : Yields (fun v => v.nesting = 0) (contentOf none n) := by
  unfold contentOf
  split
  · exact .throw _
  · exact .lift fun v read => nesting_of_scalarValue (marked_eq_ok_iff.mp read)
  · contradiction
  · contradiction
  · exact .throw _
  · exact .throw _

theorem yields_contentOf_some {inner : Node → Expand Value} {depth : Nat}
    (each : ∀ node, Yields (fun v => v.nesting ≤ depth) (inner node)) (n : Node) :
    Yields (fun v => v.nesting ≤ depth + 1) (contentOf (some inner) n) := by
  match n with
  | .alias _ _ => exact .throw _
  | .scalar _ _ _ _ =>
    refine .lift fun v read => ?_
    rw [nesting_of_scalarValue (marked_eq_ok_iff.mp read)]
    exact Nat.zero_le _
  | .sequence _ tag items =>
    refine (Yields.mapM each items).bind fun vs below => .pure ?_
    rw [nesting_withTag]
    exact Nat.succ_le_succ (Value.itemsNesting_le_iff.mpr below)
  | .mapping _ tag entries =>
    refine (yields_entriesOf each entries (by simp)).bind fun es below => .pure ?_
    rw [nesting_withTag]
    exact Nat.succ_le_succ (Value.entriesNesting_le_iff.mpr below)

/-- A value is nested no deeper than its node was allowed to be. -/
theorem yields_valueOf (t : Tree) (depth : Nat) (n : Node) :
    Yields (fun v => v.nesting ≤ depth) (valueOf t depth n) := by
  -- Following an alias costs no depth, so nothing is asked of the node that it leads to.
  induction depth generalizing n with
  | zero =>
    refine Yields.trivial.bind fun m _ used v after given => ?_
    exact Nat.le_of_eq (yields_contentOf_none m used v after given)
  | succ depth ih => exact Yields.trivial.bind fun m _ => yields_contentOf_some ih m

theorem nesting_of_tree {t : Tree} {v : Value} (given : t.value = .ok v) :
    v.nesting ≤ nestingLimit := by
  unfold Tree.value at given
  split at given
  next after found =>
    cases given
    exact yields_valueOf t nestingLimit t.root 0 v after found
  next => cases given

/-- No text reads as a value that is nested deeper than the limit. -/
theorem nesting_of_read {text : String} {v : Value} (given : read text = .ok v) :
    v.nesting ≤ nestingLimit := by
  unfold read at given
  cases scanned : tokens (withoutByteOrderMark text.toList) with
  | error e => rw [scanned] at given; cases given
  | ok ts =>
    cases parsed : Tree.ofTokens ts with
    | error e => simp only [scanned, parsed, bind, Except.bind] at given; cases given
    | ok t? =>
      simp only [scanned, parsed, bind, Except.bind] at given
      cases t? with
      | none =>
        cases given
        exact Nat.zero_le _
      | some t => exact nesting_of_tree given

end RouteForge.Yaml
