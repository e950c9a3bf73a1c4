/-!
Sets of names, kept as strictly increasing lists, and lists of names without repetition. The order
of names is the order of their code points, which is also the order of their UTF-8 bytes.
-/
namespace Workflow.Text

/-- Puts a name into an increasing list unless it is there. -/
def insertName (name : String) : List String → List String
  | [] => [name]
  | other :: rest =>
    if name < other then name :: other :: rest
    else if name = other then other :: rest
    else other :: insertName name rest

/-- The names of a list in increasing order, each once. -/
def nameSet (names : List String) : List String := names.foldr insertName []

theorem mem_insertName {x name : String} {names : List String} :
    x ∈ insertName name names ↔ x = name ∨ x ∈ names := by
  induction names with
  | nil => simp [insertName]
  | cons other rest ih =>
    by_cases hlt : name < other
    · simp [insertName, hlt]
    · by_cases heq : name = other
      · subst heq
        simp [insertName]
      · simp [insertName, hlt, heq, ih, or_left_comm]

theorem mem_nameSet {x : String} {names : List String} : x ∈ nameSet names ↔ x ∈ names := by
  induction names with
  | nil => simp [nameSet]
  | cons name rest ih =>
    rw [nameSet, List.foldr_cons, ← nameSet, mem_insertName, ih, List.mem_cons]

/-- The first occurrences of the names of a list, in their order. -/
def distinct : List String → List String
  | [] => []
  | name :: rest => name :: (distinct rest).filter (· ≠ name)

theorem mem_distinct {x : String} {names : List String} : x ∈ distinct names ↔ x ∈ names := by
  induction names with
  | nil => simp [distinct]
  | cons name rest ih =>
    by_cases h : x = name <;> simp [distinct, ih, h]

theorem nodup_distinct (names : List String) : (distinct names).Nodup := by
  induction names with
  | nil => simp [distinct]
  | cons name rest ih => exact List.nodup_cons.2 ⟨by simp, ih.sublist List.filter_sublist⟩

end Workflow.Text
