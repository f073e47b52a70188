import Mathlib.Data.List.Forall2

/-! Running a step that can fail over all members of a list. It succeeds as a whole exactly with what
it gives for each member, and stops at the first member for which it fails. -/
namespace RouteForge

variable {ε α β : Type} {f : α → Except ε β} {xs : List α}

/-- Of two computations with the same errors both succeed or none does. -/
theorem exists_ok_iff_of_error_iff {x : Except ε α} {y : Except ε β}
    (same : ∀ e, x = .error e ↔ y = .error e) : (∃ a, x = .ok a) ↔ ∃ b, y = .ok b := by
  cases x with
  | error e => simp [(same e).mp rfl]
  | ok a =>
    cases y with
    | error e => cases (same e).mpr rfl
    | ok b => simp

theorem mapM_eq_ok {g : α → β} (each : ∀ x ∈ xs, f x = .ok (g x)) : xs.mapM f = .ok (xs.map g) := by
  induction xs with
  | nil => rfl
  | cons x xs ih =>
    rw [List.mapM_cons, each x List.mem_cons_self, ih fun y member => each y (.tail x member)]
    rfl

theorem mapM_cons_eq_ok {x : α} {zs : List β} (whole : (x :: xs).mapM f = .ok zs) :
    ∃ y ys, f x = .ok y ∧ xs.mapM f = .ok ys ∧ zs = y :: ys := by
  rw [List.mapM_cons] at whole
  cases first : f x with
  | error e => rw [first] at whole; cases whole
  | ok y =>
    cases rest : xs.mapM f with
    | error e => rw [first, rest] at whole; cases whole
    | ok ys =>
      rw [first, rest] at whole
      cases whole
      exact ⟨y, ys, rfl, rfl, rfl⟩

theorem mapM_append_eq_ok {ys : List α} {zs : List β} (whole : (xs ++ ys).mapM f = .ok zs) :
    ∃ as bs, xs.mapM f = .ok as ∧ ys.mapM f = .ok bs ∧ zs = as ++ bs := by
  induction xs generalizing zs with
  | nil => exact ⟨[], zs, rfl, whole, rfl⟩
  | cons x xs ih =>
    obtain ⟨y, rest, first, others, rfl⟩ := mapM_cons_eq_ok whole
    obtain ⟨as, bs, front, back, rfl⟩ := ih others
    exact ⟨y :: as, bs, by rw [List.mapM_cons, first, front]; rfl, back, rfl⟩

theorem exists_of_mapM_eq_ok {ys : List β} (whole : xs.mapM f = .ok ys) :
    ∀ x ∈ xs, ∃ y, f x = .ok y := by
  induction xs generalizing ys with
  | nil => simp
  | cons x xs ih =>
    obtain ⟨y, _, first, others, rfl⟩ := mapM_cons_eq_ok whole
    exact List.forall_mem_cons.mpr ⟨⟨y, first⟩, ih others⟩

theorem exists_mapM_eq_ok_iff : (∃ ys, xs.mapM f = .ok ys) ↔ ∀ x ∈ xs, ∃ y, f x = .ok y := by
  constructor
  · rintro ⟨ys, whole⟩
    exact exists_of_mapM_eq_ok whole
  · intro each
    induction xs with
    | nil => exact ⟨[], rfl⟩
    | cons x xs ih =>
      obtain ⟨⟨y, first⟩, others⟩ := List.forall_mem_cons.mp each
      obtain ⟨ys, rest⟩ := ih others
      exact ⟨y :: ys, by rw [List.mapM_cons, first, rest]; rfl⟩

theorem mapM_cons_eq_error_iff {x : α} {e : ε} : (x :: xs).mapM f = .error e ↔
    f x = .error e ∨ (∃ y, f x = .ok y) ∧ xs.mapM f = .error e := by
  rw [List.mapM_cons]
  cases first : f x with
  | error r => simp [bind, Except.bind]
  | ok y => cases rest : xs.mapM f <;> simp [bind, Except.bind, pure, Except.pure]

/-- The error of two rows is that of the first, or that of the second behind a first that succeeds. -/
theorem mapM_append_eq_error_iff {ys : List α} {e : ε} : (xs ++ ys).mapM f = .error e ↔
    xs.mapM f = .error e ∨ (∃ zs, xs.mapM f = .ok zs) ∧ ys.mapM f = .error e := by
  rw [List.mapM_append]
  cases front : xs.mapM f with
  | error r => simp [bind, Except.bind]
  | ok zs => cases back : ys.mapM f <;> simp [bind, Except.bind, pure, Except.pure]

theorem mapM_eq_ok_iff {ys : List β} :
    xs.mapM f = .ok ys ↔ List.Forall₂ (fun x y => f x = .ok y) xs ys := by
  constructor
  · intro whole
    induction xs generalizing ys with
    | nil =>
      cases whole
      exact .nil
    | cons x xs ih =>
      obtain ⟨y, rest, first, others, rfl⟩ := mapM_cons_eq_ok whole
      exact .cons first (ih others)
  · intro each
    induction each with
    | nil => rfl
    | cons first _ ih =>
      rw [List.mapM_cons, first, ih]
      rfl

theorem exists_of_forall₂ {R : α → β → Prop} {ys : List β} (each : List.Forall₂ R xs ys) {x : α}
    (member : x ∈ xs) : ∃ y ∈ ys, R x y := by
  induction each with
  | nil => cases member
  | cons here _ ih =>
    rcases List.mem_cons.mp member with rfl | member
    · exact ⟨_, List.mem_cons_self, here⟩
    · obtain ⟨y, inside, there⟩ := ih member
      exact ⟨y, List.mem_cons_of_mem _ inside, there⟩

/-- The error is that of the first member that has one. -/
theorem mapM_eq_error_iff {e : ε} : xs.mapM f = .error e ↔ ∃ before x behind,
    xs = before ++ x :: behind ∧ (∀ y ∈ before, ∃ z, f y = .ok z) ∧ f x = .error e := by
  constructor
  · intro stopped
    induction xs with
    | nil => cases stopped
    | cons x xs ih =>
      rcases mapM_cons_eq_error_iff.mp stopped with here | ⟨well, later⟩
      · exact ⟨[], x, xs, rfl, by simp, here⟩
      · obtain ⟨before, z, behind, rfl, others, here⟩ := ih later
        exact ⟨x :: before, z, behind, rfl, List.forall_mem_cons.mpr ⟨well, others⟩, here⟩
  · rintro ⟨before, x, behind, rfl, well, here⟩
    have front : ∃ zs, before.mapM f = .ok zs := exists_mapM_eq_ok_iff.mpr well
    exact mapM_append_eq_error_iff.mpr (.inr ⟨front, mapM_cons_eq_error_iff.mpr (.inl here)⟩)

theorem exists_of_mapM_eq_error {e : ε} (stopped : xs.mapM f = .error e) :
    ∃ x ∈ xs, f x = .error e := by
  obtain ⟨before, x, behind, rfl, -, here⟩ := mapM_eq_error_iff.mp stopped
  exact ⟨x, by simp, here⟩

theorem forall_of_mapM_eq_ok {P : β → Prop} {ys : List β} (each : ∀ x y, f x = .ok y → P y)
    (whole : xs.mapM f = .ok ys) : ∀ y ∈ ys, P y := by
  induction xs generalizing ys with
  | nil =>
    cases whole
    simp
  | cons x xs ih =>
    obtain ⟨y, _, first, others, rfl⟩ := mapM_cons_eq_ok whole
    exact List.forall_mem_cons.mpr ⟨each x y first, ih others⟩

section Related

variable {m n : Type → Type} [Monad m] [Monad n] [LawfulMonad m] [LawfulMonad n]

/-- A relation that single steps and steps in a row keep holds of whole traversals. -/
theorem mapM_related (R : ∀ {γ : Type}, m γ → n γ → Prop)
    (pure : ∀ {γ : Type} (c : γ), R (Pure.pure c : m γ) (Pure.pure c : n γ))
    (bind : ∀ {γ δ : Type} {x : m γ} {y : n γ} {f : γ → m δ} {g : γ → n δ},
      R x y → (∀ c, R (f c) (g c)) → R (x >>= f) (y >>= g))
    {f : α → m β} {g : α → n β} (each : ∀ a, R (f a) (g a)) (xs : List α) :
    R (xs.mapM f) (xs.mapM g) := by
  induction xs with
  | nil => exact pure []
  | cons x xs ih =>
    rw [List.mapM_cons, List.mapM_cons]
    apply bind (each x)
    intro y
    apply bind ih
    intro ys
    exact pure (y :: ys)

end Related

end RouteForge
