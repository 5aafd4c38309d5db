import Mathlib

/-!
# Multimaps

Maps to lists that grow by pushes, as an index of edges by their ends does.
-/

namespace ForgeCore.Multimap

open List

universe u v

variable {key : Type u} {value : Type v} [Ord key] [Std.TransOrd key]

def values (map : Std.ExtTreeMap key (List value)) (at' : key) : List value :=
  map[at']?.getD []

/-- `map.entry(key).or_default().push(value)`. -/
def push (map : Std.ExtTreeMap key (List value)) (at' : key) (added : value) :
    Std.ExtTreeMap key (List value) :=
  map.insert at' (values map at' ++ [added])

def pushAll (map : Std.ExtTreeMap key (List value))
    (entries : List (key × value)) : Std.ExtTreeMap key (List value) :=
  entries.foldl (fun grown entry => push grown entry.1 entry.2) map

variable {map : Std.ExtTreeMap key (List value)}

variable {at' other : key} {found added : value}
    {entries : List (key × value)}

theorem values_of_getElem? {found : List value}
    (looked : map[at']? = some found) : values map at' = found := by
  rw [values, looked, Option.getD_some]

theorem mem_of_mem_values (member : found ∈ values map at') : at' ∈ map := by
  by_contra absent
  rw [values, Std.ExtTreeMap.getElem?_eq_none absent] at member
  cases member

variable [Std.LawfulEqOrd key]

theorem values_map {other : Type*} {change : key → List value → List other}
    (empty : ∀ at', change at' [] = []) (at' : key) :
    values (map.map change) at' = change at' (values map at') := by
  rw [values, values, Std.ExtTreeMap.getElem?_map]
  cases map[at']? with
  | none => exact (empty at').symm
  | some found => rfl

theorem mem_push : other ∈ push map at' added ↔ other = at' ∨ other ∈ map := by
  rw [push, Std.ExtTreeMap.mem_insert, Std.LawfulEqCmp.compare_eq_iff_eq, eq_comm]

theorem mem_values_push : found ∈ values (push map at' added) other ↔
      found ∈ values map other ∨ at' = other ∧ found = added := by
  by_cases same : at' = other
  · subst same
    simp [values, push]
  · have different : compare at' other ≠ .eq := by
      rwa [ne_eq, Std.LawfulEqCmp.compare_eq_iff_eq]
    simp [values, push, Std.ExtTreeMap.getElem?_insert, same, different]

theorem mem_pushAll :
    other ∈ pushAll map entries ↔ other ∈ map ∨ ∃ entry ∈ entries, entry.1 = other := by
  induction entries generalizing map with
  | nil => simp [pushAll]
  | cons first rest ih =>
    rw [pushAll, foldl_cons, ← pushAll, ih, mem_push]
    simp only [mem_cons, exists_eq_or_imp]
    rw [eq_comm, or_assoc, or_left_comm]

theorem mem_values_pushAll : found ∈ values (pushAll map entries) other ↔
      found ∈ values map other ∨ (other, found) ∈ entries := by
  induction entries generalizing map with
  | nil => simp [pushAll]
  | cons first rest ih =>
    rw [pushAll, foldl_cons, ← pushAll, ih, mem_values_push]
    have same : first.1 = other ∧ found = first.2 ↔ (other, found) = first := by
      constructor
      · rintro ⟨rfl, rfl⟩
        rfl
      · rintro rfl
        exact ⟨rfl, rfl⟩
    rw [same, mem_cons, or_assoc]

variable [DecidableEq key]

theorem values_pushAll (entries : List (key × value)) (at' : key) :
    values (pushAll map entries) at' = values map at' ++
      (entries.filter fun entry => entry.1 = at').map Prod.snd := by
  induction entries generalizing map with
  | nil => simp [pushAll]
  | cons first rest ih =>
    rw [pushAll, foldl_cons, ← pushAll, ih]
    by_cases same : first.1 = at'
    · subst same
      simp [values, push]
    · have different : compare first.1 at' ≠ .eq := by
        rwa [ne_eq, Std.LawfulEqCmp.compare_eq_iff_eq]
      simp [values, push, Std.ExtTreeMap.getElem?_insert, same, different]

omit [Ord key] [Std.TransOrd key] [Std.LawfulEqOrd key] in
theorem sum_length_filter_le (entries : List (key × value)) (keys : Finset key) :
    ∑ at' ∈ keys, (entries.filter fun entry => entry.1 = at').length ≤ entries.length := by
  induction entries with
  | nil => simp
  | cons first rest ih =>
    have split : ∀ at' ∈ keys, ((first :: rest).filter fun entry => entry.1 = at').length =
            (if first.1 = at' then 1 else 0) + (rest.filter fun entry => entry.1 = at').length := by
      intro at' _
      by_cases same : first.1 = at'
      · simp [same, Nat.add_comm]
      · simp [same]
    have once : ∑ at' ∈ keys, (if first.1 = at' then 1 else 0) ≤ 1 := by
      rw [Finset.sum_ite_eq]
      split <;> omega
    rw [Finset.sum_congr rfl split, Finset.sum_add_distrib, length_cons]
    omega

end ForgeCore.Multimap
