import Mathlib

/-!
# Peeling a dependency graph

Rounds that take away the nodes without dependencies stop at the nodes from
which a cycle can be reached.
-/

namespace ForgeCore.Peel

open List

universe u

variable {node : Type u}

/-- A cycle can be reached from the node. -/
def ReachesCycle (edge : node → node → Prop) (key : node) : Prop :=
  ∃ turn, Relation.ReflTransGen edge key turn ∧ Relation.TransGen edge turn turn

variable {edge : node → node → Prop}

theorem not_reachesCycle_of_acc {key : node} (acc : Acc (fun below above => edge above below) key) :
    ¬ ReachesCycle edge key := by
  rintro ⟨turn, walk, cycle⟩
  have accTurn : Acc (Relation.TransGen fun below above => edge above below) turn := by
    apply Acc.transGen
    clear cycle
    induction walk with
    | refl => exact acc
    | tail _ step ih => exact ih.inv step
  have back := Relation.transGen_swap.mpr cycle
  induction accTurn with
  | intro turn _ ih => exact ih turn back (.trans walk cycle.to_reflTransGen) cycle back

/-- In a finite set that every node can stay in, every node reaches a cycle. -/
theorem reachesCycle_of_serial {nodes : Set node} (finite : nodes.Finite)
    (serial : ∀ key ∈ nodes, ∃ next ∈ nodes, edge key next)
    {key : node} (member : key ∈ nodes) : ReachesCycle edge key := by
  by_contra none
  let reached := {other : node // other ∈ nodes ∧ Relation.ReflTransGen edge key other}
  have : Finite reached := (finite.subset fun _ inside => inside.1).to_subtype
  let below (first second : reached) : Prop := Relation.TransGen edge second.1 first.1
  have : IsTrans reached below := ⟨fun _ _ _ first second => second.trans first⟩
  have : Std.Irrefl below := ⟨fun other cycle => none ⟨other.1, other.2.2, cycle⟩⟩
  have founded := Finite.wellFounded_of_trans_of_irrefl below
  obtain ⟨last, -, least⟩ := founded.has_min Set.univ ⟨⟨key, member, .refl⟩, trivial⟩
  obtain ⟨next, inside, step⟩ := serial last.1 last.2.1
  exact least ⟨next, inside, last.2.2.tail step⟩ trivial (.single step)

section Rounds

variable [Ord node] [Std.TransOrd node] [Std.LawfulEqOrd node]

abbrev Dependencies (node : Type u) [Ord node] :=
  Std.ExtTreeMap node (Std.ExtTreeSet node)

/-- The fuel bounds the number of rounds. -/
def peel : Nat → Dependencies node → Dependencies node
  | 0, remaining => remaining
  | fuel + 1, remaining =>
    let ready := (remaining.filter fun _ dependencies => dependencies.isEmpty).keys
    if ready.isEmpty then
      remaining
    else
      peel fuel ((ready.foldl (·.erase ·) remaining).map fun _ dependencies =>
        ready.foldl (·.erase ·) dependencies)

theorem mem_foldl_erase {key : node} (ready : List node) (dependencies : Std.ExtTreeSet node) :
    key ∈ ready.foldl (·.erase ·) dependencies ↔ key ∉ ready ∧ key ∈ dependencies := by
  induction ready generalizing dependencies with
  | nil => simp
  | cons first rest ih =>
    rw [foldl_cons, ih, Std.ExtTreeSet.mem_erase, ne_eq, Std.LawfulEqCmp.compare_eq_iff_eq,
      mem_cons, not_or, eq_comm]
    tauto

theorem getElem?_foldl_erase {key : node} (ready : List node) (remaining : Dependencies node)
    {found : Std.ExtTreeSet node} : (ready.foldl (·.erase ·) remaining)[key]? = some found ↔
      key ∉ ready ∧ remaining[key]? = some found := by
  induction ready generalizing remaining with
  | nil => simp
  | cons first rest ih =>
    rw [foldl_cons, ih, Std.ExtTreeMap.getElem?_erase, mem_cons, not_or]
    by_cases same : first = key
    · simp [same]
    · simp [same, Ne.symm same]

omit [Std.LawfulEqOrd node] in
theorem size_foldl_erase_le (ready : List node) (remaining : Dependencies node) :
    (ready.foldl (·.erase ·) remaining).size ≤ remaining.size := by
  induction ready generalizing remaining with
  | nil => exact Nat.le_refl _
  | cons first rest ih => exact (ih _).trans Std.ExtTreeMap.size_erase_le

variable (edge) in
/-- The dependencies are those of the graph that are still there, and what was
removed leads to no cycle. -/
structure Peeled (remaining : Dependencies node) : Prop where
  dependencies : ∀ key dependencies, remaining[key]? = some dependencies →
    ∀ other, other ∈ dependencies ↔ edge key other ∧ other ∈ remaining
  removed : ∀ key, key ∉ remaining → Acc (fun below above => edge above below) key

variable {remaining : Dependencies node} (peeled : Peeled edge remaining) {key : node}

theorem mem_ready : key ∈ (remaining.filter fun _ dependencies => dependencies.isEmpty).keys ↔
      remaining[key]? = some ∅ := by
  rw [Std.ExtTreeMap.mem_keys, ← Std.ExtTreeMap.isSome_getElem?_iff_mem,
    Std.ExtTreeMap.getElem?_filter']
  cases remaining[key]? with
  | none => simp
  | some dependencies => simp [Option.filter_some, Std.ExtTreeSet.isEmpty_iff]

theorem mem_round {ready : List node} :
    key ∈ (ready.foldl (·.erase ·) remaining).map (fun _ dependencies =>
      ready.foldl (·.erase ·) dependencies) ↔ key ∉ ready ∧ key ∈ remaining := by
  rw [Std.ExtTreeMap.mem_map, Std.ExtTreeMap.mem_iff_isSome_getElem?, Option.isSome_iff_exists,
    Std.ExtTreeMap.mem_iff_isSome_getElem?, Option.isSome_iff_exists]
  simp only [getElem?_foldl_erase, exists_and_left]

include peeled

theorem Peeled.round {ready : List node} (isReady : ∀ key, key ∈ ready ↔ remaining[key]? = some ∅) :
    Peeled edge ((ready.foldl (·.erase ·) remaining).map fun _ dependencies =>
      ready.foldl (·.erase ·) dependencies) := by
  constructor
  · intro key dependencies found other
    rw [Std.ExtTreeMap.getElem?_map, Option.map_eq_some_iff] at found
    obtain ⟨before, found, rfl⟩ := found
    rw [getElem?_foldl_erase] at found
    rw [mem_foldl_erase, mem_round, peeled.dependencies key before found.2, and_left_comm]
  · intro key gone
    rw [mem_round, not_and] at gone
    by_cases isMember : key ∈ ready
    · apply Acc.intro
      intro other step
      apply peeled.removed
      intro there
      have inside := (peeled.dependencies key ∅ ((isReady key).mp isMember) other).mpr ⟨step, there⟩
      exact absurd inside Std.ExtTreeSet.not_mem_empty
    · exact peeled.removed key (gone isMember)

/-- When no node is ready, every node that is left can be followed to another
one that is left. -/
theorem Peeled.mem_iff (stuck : ∀ key : node, remaining[key]? ≠ some ∅) (key : node) :
    key ∈ remaining ↔ ReachesCycle edge key := by
  constructor
  · intro member
    have finite : {other | other ∈ remaining}.Finite := by
      refine (List.finite_toSet remaining.keys).subset fun other inside => ?_
      exact Std.ExtTreeMap.mem_keys.mpr inside
    refine reachesCycle_of_serial finite ?_ member
    intro other inside
    obtain ⟨dependencies, found⟩ := Option.isSome_iff_exists.mp
      (Std.ExtTreeMap.isSome_getElem?_iff_mem.mpr inside)
    by_contra none
    refine stuck other ?_
    rw [found, Option.some.injEq]
    apply Std.ExtTreeSet.ext_mem
    intro next
    constructor
    · intro isNext
      have follows := (peeled.dependencies other dependencies found next).mp isNext
      exact absurd ⟨next, follows.2, follows.1⟩ none
    · intro isNext
      exact absurd isNext Std.ExtTreeSet.not_mem_empty
  · intro reaches
    by_contra gone
    exact not_reachesCycle_of_acc (peeled.removed key gone) reaches

/-- With fuel for every node, what is left is what leads to a cycle. -/
theorem Peeled.mem_peel {fuel : Nat} (enough : remaining.size ≤ fuel) (key : node) :
    key ∈ peel fuel remaining ↔ ReachesCycle edge key := by
  induction fuel generalizing remaining with
  | zero =>
    refine peeled.mem_iff ?_ key
    intro other found
    have empty : remaining = ∅ := by
      rw [← Std.ExtTreeMap.isEmpty_iff, Std.ExtTreeMap.isEmpty_eq_size_beq_zero]
      simpa using enough
    rw [empty] at found
    simp at found
  | succ fuel ih =>
    rw [peel]
    split
    · next noneReady =>
      refine peeled.mem_iff ?_ key
      intro other found
      rw [List.isEmpty_iff] at noneReady
      have isReady := mem_ready.mpr found
      rw [noneReady] at isReady
      exact not_mem_nil isReady
    · next someReady =>
      apply ih (peeled.round fun key => mem_ready)
      obtain ⟨first, rest, isReady⟩ := exists_cons_of_ne_nil (mt List.isEmpty_iff.mpr someReady)
      have found : remaining[first]? = some ∅ := by
        rw [← mem_ready, isReady]
        exact mem_cons_self
      have there : first ∈ remaining := by
        rw [Std.ExtTreeMap.mem_iff_isSome_getElem?, found]
        rfl
      rw [Std.ExtTreeMap.size_map, isReady, foldl_cons]
      have smaller := size_foldl_erase_le rest (remaining.erase first)
      rw [Std.ExtTreeMap.size_erase, if_pos (Std.ExtTreeMap.contains_iff_mem.mpr there)] at smaller
      omega

end Rounds

end ForgeCore.Peel
