import Mathlib.Data.List.Nodup
import Mathlib.Data.List.Perm.Basic
import RouteForge.Fields

/-! Laws of fields. Putting a field keeps the order, and ascending fields are settled by what stands
under each name. -/
namespace RouteForge.Fields

variable {α : Type} {fields others : Fields α} {name : String} {x : α}

theorem mem_of_get? (found : get? fields name = some x) : (name, x) ∈ fields := by
  induction fields with
  | nil => cases found
  | cons f rest ih =>
    obtain ⟨n, y⟩ := f
    by_cases h : n = name
    · simp only [get?, h, if_true, Option.some.injEq] at found
      rw [h, found]
      exact List.mem_cons_self
    · simp only [get?, h, if_false] at found
      exact List.mem_cons_of_mem _ (ih found)

theorem get?_of_mem (ascending : fields.Ascending) (member : (name, x) ∈ fields) :
    get? fields name = some x := by
  induction fields with
  | nil => cases member
  | cons f rest ih =>
    obtain ⟨n, y⟩ := f
    obtain ⟨first, others⟩ := List.pairwise_cons.mp ascending
    rcases List.mem_cons.mp member with same | member
    · cases same
      simp [get?]
    · have apart : n ≠ name := String.ne_of_lt (first _ member)
      simp [get?, apart, ih others member]

theorem get?_eq_some_iff (ascending : fields.Ascending) :
    get? fields name = some x ↔ (name, x) ∈ fields :=
  ⟨mem_of_get?, get?_of_mem ascending⟩

theorem forall_mem_iff {P : String → α → Prop} (ascending : fields.Ascending) :
    (∀ f ∈ fields, P f.1 f.2) ↔ ∀ name x, get? fields name = some x → P name x :=
  ⟨fun all name x found => all (name, x) (mem_of_get? found),
    fun each f member => each f.1 f.2 (get?_of_mem ascending member)⟩

theorem Ascending.get?_rest {rest : Fields α} (ascending : Ascending ((name, x) :: rest)) :
    get? rest name = none := by
  cases found : get? rest name with
  | none => rfl
  | some y =>
    have first := (List.pairwise_cons.mp ascending).1
    exact absurd rfl (String.ne_of_lt (first (name, y) (mem_of_get? found)))

theorem Ascending.nodup (ascending : fields.Ascending) : fields.Nodup :=
  List.Pairwise.imp (fun less same => String.ne_of_lt less (congrArg Prod.fst same)) ascending

/-- Fields can be ascending in one order only. -/
theorem Ascending.eq_of_perm (left : fields.Ascending) (right : others.Ascending)
    (perm : fields.Perm others) : fields = others :=
  perm.eq_of_pairwise (fun _ _ _ _ less more => absurd less (String.lt_asymm more)) left right

/-- Fields that can be ascending have each name once. -/
theorem Ascending.ne_of_perm (ascending : fields.Ascending) (perm : fields.Perm ((name, x) :: others)) :
    ∀ f ∈ others, name ≠ f.1 := by
  have apart : fields.Pairwise (fun f g => f.1 ≠ g.1) := ascending.imp String.ne_of_lt
  exact (List.pairwise_cons.mp ((perm.pairwise_iff Ne.symm).mp apart)).1

/-- Ascending fields with the same under each name are the same. -/
theorem Ascending.ext (left : fields.Ascending) (right : others.Ascending)
    (same : ∀ name, get? fields name = get? others name) : fields = others := by
  have members : ∀ f, f ∈ fields ↔ f ∈ others := by
    rintro ⟨name, x⟩
    rw [← get?_eq_some_iff left, ← get?_eq_some_iff right, same]
  have perm : fields.Perm others :=
    (List.perm_ext_iff_of_nodup left.nodup right.nodup).mpr members
  exact left.eq_of_perm right perm

theorem mem_put {f : String × α} (member : f ∈ put name x fields) : f = (name, x) ∨ f ∈ fields := by
  induction fields with
  | nil => simpa [put] using member
  | cons g rest ih =>
    obtain ⟨n, y⟩ := g
    by_cases same : name = n
    · simp only [put, same, if_true, List.mem_cons] at member
      rcases member with rfl | member
      · exact .inl (by rw [same])
      · exact .inr (List.mem_cons_of_mem _ member)
    · by_cases less : name < n
      · simpa only [put, same, less, if_false, if_true, List.mem_cons] using member
      · simp only [put, same, less, if_false, List.mem_cons] at member
        rcases member with rfl | member
        · exact .inr List.mem_cons_self
        · exact (ih member).imp_right (List.mem_cons_of_mem _)

/-- A new field is added to the others. -/
theorem put_perm (fresh : get? fields name = none) :
    (put name x fields).Perm ((name, x) :: fields) := by
  induction fields with
  | nil => exact .refl _
  | cons g rest ih =>
    obtain ⟨n, y⟩ := g
    by_cases same : name = n
    · simp [get?, same] at fresh
    · by_cases less : name < n
      · simp [put, same, less]
      · have behind : get? rest name = none := by simpa [get?, Ne.symm same] using fresh
        simp only [put, same, less, if_false]
        exact ((ih behind).cons _).trans (.swap _ _ _)

theorem append_put_perm (front : Fields α) (fresh : get? fields name = none) :
    (front ++ put name x fields).Perm ((name, x) :: (front ++ fields)) :=
  ((put_perm fresh).append_left front).trans List.perm_middle

theorem mem_names_put {other : String} :
    other ∈ (put name x fields).map Prod.fst ↔ other = name ∨ other ∈ fields.map Prod.fst := by
  induction fields with
  | nil => simp [put]
  | cons g rest ih =>
    obtain ⟨n, y⟩ := g
    by_cases same : name = n
    · simp [put, same]
    · by_cases less : name < n
      · simp [put, same, less]
      · simp only [put, same, less, if_false, List.map_cons, List.mem_cons, ih]
        exact or_left_comm

theorem Ascending.put (ascending : fields.Ascending) : (put name x fields).Ascending := by
  induction fields with
  | nil => exact List.pairwise_singleton _ _
  | cons g rest ih =>
    obtain ⟨n, y⟩ := g
    obtain ⟨first, others⟩ := List.pairwise_cons.mp ascending
    by_cases same : name = n
    · subst same
      simp only [Fields.put, if_true]
      exact List.pairwise_cons.mpr ⟨first, others⟩
    · by_cases less : name < n
      · simp only [Fields.put, same, less, if_false, if_true]
        refine List.pairwise_cons.mpr ⟨fun f member => ?_, ascending⟩
        rcases List.mem_cons.mp member with rfl | member
        · exact less
        · exact String.lt_trans less (first f member)
      · have more : n < name := String.not_le.mp fun le =>
          same (String.le_antisymm le (String.not_lt.mp less))
        simp only [Fields.put, same, less, if_false]
        refine List.pairwise_cons.mpr ⟨fun f member => ?_, ih others⟩
        rcases mem_put member with rfl | member
        · exact more
        · exact first f member

section Map

variable {β : Type} (f : α → β)

theorem get?_map (fields : Fields α) (name : String) :
    get? (fields.map fun x => (x.1, f x.2)) name = (get? fields name).map f := by
  induction fields with
  | nil => rfl
  | cons g rest ih =>
    obtain ⟨n, y⟩ := g
    by_cases here : n = name
    · simp [get?, here]
    · simp [get?, here, ih]

/-- A field may be put before or after the values are replaced. -/
theorem map_put (name : String) (x : α) (fields : Fields α) :
    (put name x fields).map (fun y => (y.1, f y.2)) =
      put name (f x) (fields.map fun y => (y.1, f y.2)) := by
  induction fields with
  | nil => rfl
  | cons g rest ih =>
    obtain ⟨n, y⟩ := g
    by_cases same : name = n
    · simp [put, same]
    · by_cases less : name < n
      · simp [put, same, less]
      · simp [put, same, less, ih]

theorem Ascending.map (ascending : fields.Ascending) :
    Ascending (fields.map fun x => (x.1, f x.2)) := by
  unfold Ascending
  rw [List.pairwise_map]
  exact ascending

end Map

end RouteForge.Fields
