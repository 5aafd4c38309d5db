import Mathlib

/-!
# Secondary indexes

A map from a field of its entries back to their keys, kept in step with the
map that it indexes.
-/

namespace ForgeCore.Index

universe u v w

variable {key : Type u} {name : Type v} {entry : Type w}
  [Ord key] [Std.TransOrd key] [Ord name] [Std.TransOrd name]

/-- The index finds exactly the entries of the map. -/
def Indexes (index : Std.ExtTreeMap name key)
    (entries : Std.ExtTreeMap key entry) (field : entry → name) : Prop :=
  ∀ label position, index[label]? = some position ↔
    ∃ found, entries[position]? = some found ∧ field found = label

variable {index : Std.ExtTreeMap name key}
  {entries : Std.ExtTreeMap key entry} {field : entry → name}

theorem indexes_empty :
    Indexes (∅ : Std.ExtTreeMap name key) (∅ : Std.ExtTreeMap key entry) field := by
  intro label position
  simp

variable {position : key}

theorem Indexes.unique (indexes : Indexes index entries field)
    (foundAt : entries[position]? = some found) (secondAt : entries[other]? = some second)
    (same : field found = field second) : position = other := by
  have first := (indexes _ _).mpr ⟨found, foundAt, rfl⟩
  have again := (indexes _ _).mpr ⟨second, secondAt, rfl⟩
  rw [same, again] at first
  exact (Option.some.inj first).symm

theorem Indexes.absent (indexes : Indexes index entries field) (fresh : ∀ (position : key) found,
      entries[position]? = some found → field found ≠ label) : index[label]? = none := by
  cases lookup : index[label]? with
  | none => rfl
  | some position =>
    obtain ⟨found, foundAt, labelled⟩ := (indexes _ _).mp lookup
    exact absurd labelled (fresh position found foundAt)

theorem Indexes.insert
    [Std.LawfulEqOrd key] [Std.LawfulEqOrd name] (indexes : Indexes index entries field)
    (added : entry) (unused : entries[position]? = none)
    (fresh : ∀ (other : key) found, entries[other]? = some found → field found ≠ field added) :
    Indexes (index.insert (field added) position) (entries.insert position added) field := by
  intro label other
  simp only [Std.ExtTreeMap.getElem?_insert, Std.LawfulEqCmp.compare_eq_iff_eq]
  by_cases sameKey : position = other
  · subst sameKey
    by_cases sameLabel : field added = label
    · simp [sameLabel]
    · have elsewhere : index[label]? ≠ some position := by
        intro lookup
        obtain ⟨found, foundAt, -⟩ := (indexes _ _).mp lookup
        rw [unused] at foundAt
        cases foundAt
      simp [sameLabel, elsewhere]
  · by_cases sameLabel : field added = label
    · have none : ¬ ∃ found, entries[other]? = some found ∧ field found = label := by
        rintro ⟨found, foundAt, labelled⟩
        exact fresh other found foundAt (labelled.trans sameLabel.symm)
      simp [sameKey, sameLabel, none]
    · simpa [sameKey, sameLabel] using indexes label other

theorem Indexes.update [Std.LawfulEqOrd key] (indexes : Indexes index entries field)
    (oldAt : entries[position]? = some old) (same : field new = field old) :
    Indexes index (entries.insert position new) field := by
  intro label other
  rw [indexes label other]
  simp only [Std.ExtTreeMap.getElem?_insert, Std.LawfulEqCmp.compare_eq_iff_eq]
  by_cases sameKey : position = other
  · subst sameKey
    simp [oldAt, same]
  · simp [sameKey]

end ForgeCore.Index
