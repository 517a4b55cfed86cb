import Mathlib.Data.List.Basic

/-!
# Tables as text

A table is a text of rows, each ended by one symbol, and a row is its fields with
another symbol between them. The number of rows and the number of fields that a reader
finds are determined by how often these symbols occur: they are the numbers that were
written exactly when no row contains the row end and no field contains the separator,
and then rows and fields are read back as they were written.
-/

namespace Keyvisor.Foundation.Table

variable {α : Type} [BEq α] [LawfulBEq α]

/-- The rows, each followed by the row end. -/
def written (rowEnd : α) (rows : List (List α)) : List α := rows.flatMap fun row => row ++ [rowEnd]

/-- The ended rows of a text. -/
def rows (rowEnd : α) (text : List α) : List (List α) := (text.splitOn rowEnd).dropLast

/-- The fields with the separator between them. -/
def row (separator : α) (fields : List (List α)) : List α := [separator].intercalate fields

/-- A text has one piece more than it has separators. -/
theorem length_splitOn (separator : α) (text : List α) :
    (text.splitOn separator).length = text.count separator + 1 := by
  induction text with
  | nil => rfl
  | cons symbol rest inductionHypothesis =>
    rw [List.splitOn_cons_eq_if_modifyHead]
    by_cases same : symbol == separator
    · obtain rfl := eq_of_beq same
      simp [inductionHypothesis]
    · simp [same, inductionHypothesis, List.count_cons]

/-- A text has as many ended rows as row ends. -/
theorem length_rows (rowEnd : α) (text : List α) : (rows rowEnd text).length = text.count rowEnd := by
  rw [rows, List.length_dropLast, length_splitOn, Nat.add_sub_cancel]

/-- A row without row ends is read back before the rows that follow. -/
theorem rows_append {rowEnd : α} {first : List α} (unbroken : rowEnd ∉ first) (rest : List α) :
    rows rowEnd (first ++ rowEnd :: rest) = first :: rows rowEnd rest := by
  rw [rows, List.splitOn_append_cons_self_of_not_mem unbroken]
  exact List.dropLast_cons_of_ne_nil (List.splitOn_ne_nil _ _)

/-- Rows without row ends are read back. -/
theorem rows_written {rowEnd : α} {lines : List (List α)} (unbroken : ∀ line ∈ lines, rowEnd ∉ line) :
    rows rowEnd (written rowEnd lines) = lines := by
  induction lines with
  | nil => rfl
  | cons first rest inductionHypothesis =>
    obtain ⟨head, tail⟩ := List.forall_mem_cons.mp unbroken
    rw [written, List.flatMap_cons, List.append_assoc, List.singleton_append, rows_append head]
    exact congrArg _ (inductionHypothesis tail)

/-- The row ends of a table are those after its rows and those within them. -/
theorem count_written (rowEnd : α) (lines : List (List α)) :
    (written rowEnd lines).count rowEnd = lines.length + lines.flatten.count rowEnd := by
  induction lines with
  | nil => rfl
  | cons first rest inductionHypothesis =>
    have tail : (rest.flatMap fun line => line ++ [rowEnd]).count rowEnd =
        rest.length + rest.flatten.count rowEnd := inductionHypothesis
    simp only [written, List.flatMap_cons, List.count_append, List.count_singleton_self, tail,
      List.length_cons, List.flatten_cons]
    omega

/-- What does not occur in the texts altogether occurs in none of them. -/
theorem not_mem_of_count_flatten {symbol : α} {texts : List (List α)} (none : texts.flatten.count symbol = 0) :
    ∀ text ∈ texts, symbol ∉ text :=
  fun _ member within => List.count_eq_zero.mp none (List.mem_flatten_of_mem member within)

/-- A reader that finds as many rows as were written has found rows without row ends. -/
theorem unbroken_of_length {rowEnd : α} {lines : List (List α)}
    (same : (rows rowEnd (written rowEnd lines)).length = lines.length) : ∀ line ∈ lines, rowEnd ∉ line := by
  rw [length_rows, count_written] at same
  exact not_mem_of_count_flatten (by omega)

/-- The separators of a row are those between its fields and those within them. -/
theorem count_row (separator : α) (first : List α) (rest : List (List α)) :
    (row separator (first :: rest)).count separator =
      rest.length + (first :: rest).flatten.count separator := by
  induction rest generalizing first with
  | nil => simp [row]
  | cons second later inductionHypothesis =>
    have tail := inductionHypothesis second
    rw [row] at tail ⊢
    simp only [List.intercalate_cons_cons, List.count_append, List.count_singleton_self, tail, List.length_cons,
      List.flatten_cons]
    omega

/-- A reader finds as many fields as were written exactly when no field contains the
separator. -/
theorem length_fields_iff {separator : α} {fields : List (List α)} (some : fields ≠ []) :
    ((row separator fields).splitOn separator).length = fields.length ↔ ∀ field ∈ fields, separator ∉ field := by
  obtain ⟨first, rest, rfl⟩ := List.exists_cons_of_ne_nil some
  constructor
  · intro same
    rw [length_splitOn, count_row, List.length_cons] at same
    exact not_mem_of_count_flatten (by omega)
  · intro plain
    rw [row, List.splitOn_intercalate separator plain some]

/-- Fields without separators are read back. -/
theorem fields_row {separator : α} {fields : List (List α)} (some : fields ≠ [])
    (plain : ∀ field ∈ fields, separator ∉ field) : (row separator fields).splitOn separator = fields :=
  List.splitOn_intercalate separator plain some

omit [BEq α] [LawfulBEq α] in
/-- Apart from separators, a row contains what its fields contain. -/
theorem mem_row_iff {symbol separator : α} (other : symbol ≠ separator) (fields : List (List α)) :
    symbol ∈ row separator fields ↔ ∃ field ∈ fields, symbol ∈ field := by
  induction fields with
  | nil => simp [row]
  | cons first rest inductionHypothesis =>
    cases rest with
    | nil => simp [row]
    | cons second later =>
      rw [row] at inductionHypothesis ⊢
      simp [List.intercalate_cons_cons, inductionHypothesis, other]

end Keyvisor.Foundation.Table
