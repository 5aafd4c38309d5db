import Mathlib

/-!
# Collections by key

Sets and maps that are collected from a list in one pass, and lists that are
ordered by a key.
-/

namespace ForgeCore.Collect

open List

universe u v w

variable {item : Type u} {key : Type v} {value : Type w}
variable [Ord key] [Std.TransOrd key]

def set (keyOf : item → key) (items : List item) : Std.ExtTreeSet key :=
  items.foldl (fun collected entry => collected.insert (keyOf entry)) ∅

def map (keyOf : item → key) (valueOf : item → value) (items : List item) :
    Std.ExtTreeMap key value :=
  items.foldl (fun collected entry => collected.insert (keyOf entry) (valueOf entry)) ∅

variable {keyOf : item → key} {valueOf : item → value} {items : List item}

theorem set_concat (items : List item) (entry : item) :
    set keyOf (items ++ [entry]) = (set keyOf items).insert (keyOf entry) := by
  rw [set, foldl_append, foldl_cons, foldl_nil, ← set]

theorem map_concat (items : List item) (entry : item) : map keyOf valueOf (items ++ [entry]) =
      (map keyOf valueOf items).insert (keyOf entry) (valueOf entry) := by
  rw [map, foldl_append, foldl_cons, foldl_nil, ← map]

variable [Std.LawfulEqOrd key]

theorem mem_set : at' ∈ set keyOf items ↔ ∃ entry ∈ items, keyOf entry = at' := by
  induction items using List.reverseRecOn with
  | nil => simp [set]
  | append_singleton items entry ih =>
    rw [set_concat, Std.ExtTreeSet.mem_insert, Std.LawfulEqCmp.compare_eq_iff_eq, ih]
    simp only [mem_append, mem_singleton, or_and_right, exists_or, exists_eq_left]
    exact or_comm

theorem nodup_toList (collected : Std.ExtTreeSet key) : collected.toList.Nodup := by
  apply List.Pairwise.imp _ Std.ExtTreeSet.distinct_toList
  intro left right different same
  exact different (Std.LawfulEqCmp.compare_eq_iff_eq.mpr same)

variable [DecidableEq key]

theorem getElem?_map_concat (items : List item) (entry : item) (at' : key) :
    (map keyOf valueOf (items ++ [entry]))[at']? = if keyOf entry = at' then some (valueOf entry)
      else (map keyOf valueOf items)[at']? := by
  rw [map_concat, Std.ExtTreeMap.getElem?_insert]
  simp only [Std.LawfulEqCmp.compare_eq_iff_eq]

theorem exists_of_getElem?_map (looked : (map keyOf valueOf items)[at']? = some found) :
    ∃ entry ∈ items, keyOf entry = at' ∧ valueOf entry = found := by
  induction items using List.reverseRecOn with
  | nil => simp [map] at looked
  | append_singleton items entry ih =>
    rw [getElem?_map_concat] at looked
    split at looked
    · next same =>
      exact ⟨entry, by simp, same, Option.some.inj looked⟩
    · obtain ⟨other, member, rest⟩ := ih looked
      exact ⟨other, mem_append_left _ member, rest⟩

theorem isSome_getElem?_map {entry : item} (member : entry ∈ items) :
    ((map keyOf valueOf items)[keyOf entry]?).isSome = true := by
  induction items using List.reverseRecOn with
  | nil => cases member
  | append_singleton items last ih =>
    rw [getElem?_map_concat]
    split
    · rfl
    · next different =>
      rcases List.mem_append.mp member with before | isLast
      · exact ih before
      · rw [List.mem_singleton.mp isLast] at different
        exact absurd rfl different

theorem getElem?_map_of_nodup (distinct : (items.map keyOf).Nodup) (member : entry ∈ items) :
    (map keyOf valueOf items)[keyOf entry]? = some (valueOf entry) := by
  obtain ⟨found, looked⟩ := Option.isSome_iff_exists.mp
      (@isSome_getElem?_map _ _ _ _ _ keyOf valueOf items _ _ entry member)
  obtain ⟨other, otherMember, sameKey, isFound⟩ := exists_of_getElem?_map looked
  have same := inj_on_of_nodup_map distinct otherMember member sameKey
  rw [looked, ← isFound, same]

section Values

variable {item : Type u} {key : Type v} [Ord key] [Std.TransOrd key]
variable [Std.LawfulEqOrd key] [DecidableEq key]
variable {keyOf : item → key} {items : List item}

def ordered (keyOf : item → key) (items : List item) : List item :=
  (map keyOf id items).toList.map Prod.snd

section

variable (distinct : (items.map keyOf).Nodup)

include distinct

theorem getElem?_map_id_iff :
    (map keyOf id items)[at']? = some entry ↔ entry ∈ items ∧ keyOf entry = at' := by
  constructor
  · intro looked
    obtain ⟨found, member, same, rfl⟩ := exists_of_getElem?_map looked
    exact ⟨member, same⟩
  · rintro ⟨member, rfl⟩
    exact getElem?_map_of_nodup distinct member

theorem mem_ordered :
    entry ∈ ordered keyOf items ↔ entry ∈ items := by
  rw [ordered, mem_map]
  constructor
  · rintro ⟨⟨at', found⟩, member, rfl⟩
    rw [Std.ExtTreeMap.mem_toList_iff_getElem?_eq_some, getElem?_map_id_iff distinct] at member
    exact member.1
  · intro member
    refine ⟨(keyOf entry, entry), ?_, rfl⟩
    rw [Std.ExtTreeMap.mem_toList_iff_getElem?_eq_some, getElem?_map_id_iff distinct]
    exact ⟨member, rfl⟩

theorem nodup_ordered :
    ((ordered keyOf items).map keyOf).Nodup := by
  have keys : (ordered keyOf items).map keyOf = (map keyOf id items).toList.map Prod.fst := by
    rw [ordered, map_map]
    apply map_congr_left
    rintro ⟨at', found⟩ member
    rw [Std.ExtTreeMap.mem_toList_iff_getElem?_eq_some, getElem?_map_id_iff distinct] at member
    exact member.2
  rw [keys, Std.ExtTreeMap.map_fst_toList_eq_keys]
  apply List.Pairwise.imp _ Std.ExtTreeMap.distinct_keys
  intro left right different same
  exact different (Std.LawfulEqCmp.compare_eq_iff_eq.mpr same)

theorem ordered_ordered :
    ordered keyOf (ordered keyOf items) = ordered keyOf items := by
  have same : map keyOf id (ordered keyOf items) = map keyOf id items := by
    apply Std.ExtTreeMap.ext_getElem?
    intro at'
    apply Option.ext
    intro entry
    rw [getElem?_map_id_iff (nodup_ordered distinct),
      getElem?_map_id_iff distinct, mem_ordered distinct]
  rw [ordered, same, ← ordered]

end

end Values

section ByKey

variable {entry : Type u} {key : Type v} [LinearOrder key] (keyOf : entry → key)

theorem pairwise_mergeSort_key (entries : List entry) :
    (entries.mergeSort fun left right => keyOf left ≤ keyOf right).Pairwise
      fun left right => keyOf left ≤ keyOf right := by
  have transitive (left middle right : entry) (first : decide (keyOf left ≤ keyOf middle) = true)
      (second : decide (keyOf middle ≤ keyOf right) = true) :
      decide (keyOf left ≤ keyOf right) = true := decide_eq_true
      (le_trans (of_decide_eq_true first) (of_decide_eq_true second))
  have total (left right : entry) : (decide (keyOf left ≤ keyOf right) ||
        decide (keyOf right ≤ keyOf left)) = true := by
    simpa using le_total (keyOf left) (keyOf right)
  apply List.Pairwise.imp _ (pairwise_mergeSort transitive total entries)
  intro left right before
  exact of_decide_eq_true before

theorem mergeSort_key_of_perm {entries permuted : List entry} (perm : entries.Perm permuted)
    (distinct : (entries.map keyOf).Nodup) :
    (permuted.mergeSort fun left right => keyOf left ≤ keyOf right) =
      entries.mergeSort fun left right => keyOf left ≤ keyOf right := by
  have samePerm := (mergeSort_perm permuted fun left right => keyOf left ≤ keyOf right).trans
      (perm.symm.trans (mergeSort_perm entries fun left right => keyOf left ≤ keyOf right).symm)
  apply samePerm.eq_of_pairwise _ (pairwise_mergeSort_key keyOf permuted)
    (pairwise_mergeSort_key keyOf entries)
  intro left right leftMember rightMember before after
  exact inj_on_of_nodup_map distinct (perm.mem_iff.mpr (List.mem_mergeSort.mp leftMember))
    (List.mem_mergeSort.mp rightMember) (le_antisymm before after)

end ByKey

section Destutter

variable {α : Type u} [DecidableEq α]

theorem mem_destutter'_of_mem {rest : List α} (member : found ∈ first :: rest) :
    found ∈ rest.destutter' (· ≠ ·) first := by
  induction rest generalizing first with
  | nil => exact member
  | cons second rest ih =>
    by_cases differ : first ≠ second
    · rw [destutter'_cons_pos _ differ]
      rcases List.mem_cons.mp member with rfl | later
      · exact mem_cons_self
      · exact mem_cons_of_mem _ (ih later)
    · rw [destutter'_cons_neg _ differ]
      have same : first = second := not_not.mp differ
      apply ih
      rcases List.mem_cons.mp member with rfl | later
      · exact mem_cons_self
      · rw [same]
        exact later

theorem mem_destutter {items : List α} {found : α} :
    found ∈ items.destutter (· ≠ ·) ↔ found ∈ items := by
  cases items with
  | nil => rfl
  | cons first rest =>
    constructor
    · intro member
      exact (destutter_sublist _ _).subset member
    · exact mem_destutter'_of_mem

end Destutter

end ForgeCore.Collect
