/-! Fields by name, ascending and each name once. The order of names is that of their characters'
numbers, which is also the order of their octets. -/
namespace RouteForge

/-- Spelled out wherever it stands inside an inductive type, which may not use a synonym. -/
abbrev Fields (α : Type) := List (String × α)

namespace Fields

variable {α : Type}

def Ascending (fields : Fields α) : Prop := fields.Pairwise (fun a b => a.1 < b.1)

instance (fields : Fields α) : Decidable fields.Ascending :=
  inferInstanceAs (Decidable (fields.Pairwise _))

def get? (fields : Fields α) (name : String) : Option α :=
  match fields with
  | [] => none
  | (n, x) :: rest => if n = name then some x else get? rest name

/-- Replaces the field of that name, or puts it at its place. -/
def put (name : String) (x : α) : Fields α → Fields α
  | [] => [(name, x)]
  | (n, y) :: rest =>
    if name = n then (name, x) :: rest
    else if name < n then (name, x) :: (n, y) :: rest
    else (n, y) :: put name x rest

theorem get?_put_self (name : String) (x : α) (fields : Fields α) :
    get? (put name x fields) name = some x := by
  induction fields with
  | nil => simp [put, get?]
  | cons f rest ih =>
    obtain ⟨n, y⟩ := f
    by_cases h : name = n
    · simp [put, get?, h]
    · by_cases k : name < n
      · simp [put, get?, h, k]
      · simp [put, get?, h, k, Ne.symm h, ih]

theorem get?_put_other (name other : String) (h : other ≠ name) (x : α) (fields : Fields α) :
    get? (put name x fields) other = get? fields other := by
  induction fields with
  | nil => simp [put, get?, Ne.symm h]
  | cons f rest ih =>
    obtain ⟨n, y⟩ := f
    by_cases e : name = n
    · subst e
      simp [put, get?, Ne.symm h]
    · by_cases k : name < n
      · simp [put, get?, e, k, Ne.symm h]
      · simp [put, get?, e, k, ih]

end Fields
end RouteForge
