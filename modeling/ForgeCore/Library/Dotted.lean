import Mathlib

/-!
# Names below a name

A name is below another one when it is that name, or continues it after a
separator.
-/

namespace ForgeCore.Dotted

open List

universe u

variable {α : Type u} {separator : α}

/-- `name` is `start`, or continues it after the separator. -/
def Under (separator : α) (name start : List α) : Prop :=
  name = start ∨ ∃ rest, name = start ++ separator :: rest

variable {name start first second : List α}

theorem Under.exists_rest (under : Under separator name start) :
    ∃ rest, name = start ++ rest ∧ (rest = [] ∨ rest.head? = some separator) := by
  rcases under with rfl | ⟨rest, rfl⟩
  · exact ⟨[], by simp, Or.inl rfl⟩
  · exact ⟨separator :: rest, rfl, Or.inr rfl⟩

/-- The longer of two names is below the shorter one when what it adds begins
with what a common name adds. -/
theorem under_of_common {between rest after : List α}
    (marked : rest = [] ∨ rest.head? = some separator) (common : rest = between ++ after) :
    Under separator (start ++ between) start := by
  cases between with
  | nil => exact Or.inl (append_nil start)
  | cons first more =>
    rcases marked with empty | marked
    · rw [empty] at common
      cases common
    · rw [common, cons_append, head?_cons] at marked
      cases marked
      exact Or.inr ⟨more, rfl⟩

theorem Under.comparable
    (underFirst : Under separator name first) (underSecond : Under separator name second) :
    Under separator first second ∨ Under separator second first := by
  obtain ⟨firstRest, firstName, firstMarked⟩ := underFirst.exists_rest
  obtain ⟨secondRest, secondName, secondMarked⟩ := underSecond.exists_rest
  have same : first ++ firstRest = second ++ secondRest := firstName.symm.trans secondName
  rcases List.append_eq_append_iff.mp same with
    ⟨between, longer, common⟩ | ⟨between, longer, common⟩
  · rw [longer]
    exact Or.inr (under_of_common firstMarked common)
  · rw [longer]
    exact Or.inl (under_of_common secondMarked common)

/-- A name without the separator is read back from what is joined to it. -/
theorem eq_of_joined {rest more : List α} (firstPlain : separator ∉ first)
    (secondPlain : separator ∉ second)
    (same : first ++ separator :: rest = second ++ separator :: more) :
    first = second ∧ rest = more := by
  induction first generalizing second with
  | nil =>
    cases second with
    | nil => exact ⟨rfl, tail_eq_of_cons_eq same⟩
    | cons head tail => exact absurd (head_eq_of_cons_eq same ▸ mem_cons_self) secondPlain
  | cons head tail ih =>
    cases second with
    | nil => exact absurd (head_eq_of_cons_eq same ▸ mem_cons_self) firstPlain
    | cons other others =>
      rw [mem_cons, not_or] at firstPlain secondPlain
      obtain ⟨tails, rests⟩ := ih firstPlain.2 secondPlain.2 (tail_eq_of_cons_eq same)
      exact ⟨by rw [head_eq_of_cons_eq same, tails], rests⟩

end ForgeCore.Dotted
