import Keyvisor.Foundation.BigEndian
import Mathlib.Data.List.Basic

/-!
# Paths

A path is what its components are: whether it starts at the root, and the names on the
way. Empty names and dots are no components, except for a dot at the start of a relative
path. Spellings with the same components are the same path.

Joining appends the components of a relative text. An absolute text replaces the path,
and the empty path is replaced by any text.
-/

namespace Keyvisor.Foundation

/-- A path by its names. -/
@[ext] structure Path where
  absolute : Bool
  names : List Bytes
  deriving DecidableEq, Repr

namespace Path

/-- A dot says where its reader already is. -/
def named (name : Bytes) : Bool := name != [46]

/-- The pieces between slashes that are not empty. -/
def pieces (text : Bytes) : List Bytes := (text.splitOn 47).filter fun piece => piece ≠ []

/-- The path of a text. -/
def parse (text : Bytes) : Path :=
  if text.head? = some 47 then ⟨true, (pieces text).filter named⟩
  else ⟨false, (pieces text).take 1 ++ ((pieces text).drop 1).filter named⟩

/-- The empty path. -/
def empty : Path := ⟨false, []⟩

/-- `Path::join`. -/
def join (base : Path) (text : Bytes) : Path :=
  if text.head? = some 47 ∨ base = empty then parse text
  else ⟨base.absolute, base.names ++ (pieces text).filter named⟩

/-- The path without its last name. The root and the empty path have no parent. -/
def parent (path : Path) : Option Path :=
  if path.names = [] then none else some ⟨path.absolute, path.names.dropLast⟩

/-- The text does not begin with a separator. -/
def isRelative (text : Bytes) : Bool := text.head? != some 47

/-- A separator separates the pieces before it from those after it. -/
theorem pieces_append (first second : Bytes) : pieces (first ++ 47 :: second) = pieces first ++ pieces second := by
  rw [pieces, List.splitOn_append_cons_self, List.filter_append]
  rfl

/-- A relative text adds its names. -/
theorem join_relative {base : Path} {text : Bytes} (relative : isRelative text) (something : base ≠ empty) :
    base.join text = ⟨base.absolute, base.names ++ (pieces text).filter named⟩ :=
  if_neg (not_or.mpr ⟨bne_iff_ne.mp relative, something⟩)

/-- The names of a relative text start the path when there is none. -/
theorem join_empty {text : Bytes} (relative : isRelative text) :
    empty.join text = ⟨false, (pieces text).take 1 ++ ((pieces text).drop 1).filter named⟩ := by
  rw [join, if_pos (.inr rfl), parse, if_neg (bne_iff_ne.mp relative)]

/-- Two relative texts may be joined one after the other or with a slash between them. -/
theorem join_join (base : Path) {first second : Bytes} (left : isRelative first) (something : pieces first ≠ [])
    (right : isRelative second) : (base.join first).join second = base.join (first ++ 47 :: second) := by
  have both : isRelative (first ++ 47 :: second) := by
    cases first with
    | nil => exact absurd rfl something
    | cons byte rest => exact left
  by_cases nothing : base = empty
  · subst nothing
    cases names : pieces first with
    | nil => exact absurd names something
    | cons name rest =>
      have started : (⟨false, name :: rest.filter named⟩ : Path) ≠ empty := by simp [empty]
      rw [join_empty left, join_empty both, pieces_append, names]
      simp only [List.take_succ_cons, List.take_zero, List.drop_succ_cons, List.drop_zero, List.cons_append,
        List.nil_append, List.filter_append]
      exact join_relative right started
  · have started : (⟨base.absolute, base.names ++ (pieces first).filter named⟩ : Path) ≠ empty := by
      intro same
      apply nothing
      simp only [empty, Path.mk.injEq, List.append_eq_nil_iff] at same
      exact Path.ext same.1 same.2.1
    rw [join_relative left nothing, join_relative right started, join_relative both nothing, pieces_append,
      List.filter_append, List.append_assoc]

/-- A relative text without dots is the end of what it is joined to. -/
theorem names_join (base : Path) {text : Bytes} (relative : isRelative text)
    (plain : (pieces text).filter named = pieces text) :
    (base.join text).names = base.names ++ pieces text := by
  by_cases nothing : base = empty
  · subst nothing
    rw [join_empty relative]
    have rest : ((pieces text).drop 1).filter named = (pieces text).drop 1 :=
      List.filter_eq_self.mpr fun name member =>
        List.filter_eq_self.mp plain name (List.mem_of_mem_drop member)
    rw [rest, List.take_append_drop]
    rfl
  · rw [join_relative relative nothing, plain]

/-- The parent of a path is the path without its last name. -/
theorem parent_of_names {path : Path} {before : List Bytes} {last : Bytes} (ends : path.names = before ++ [last]) :
    path.parent = some ⟨path.absolute, before⟩ := by
  rw [parent, if_neg (by simp [ends]), ends, List.dropLast_concat]

end Path

end Keyvisor.Foundation
