import ForgeCore.Library.Graph

/-!
# Search with a stack

A search that notes every node once visits what can be reached, given fuel
for every pop.
-/

namespace ForgeCore.Graph

open List

universe u v

variable {node : Type u} {notes : Type v} [Ord node] [Std.TransOrd node]

section Search

variable (successors : node → List node) (note : node → notes → notes)

/-- Visit what is on the stack and what it leads to.  A node is noted when it
is visited for the first time.  The fuel bounds the number of pops. -/
def explore : Nat → List node → Std.ExtTreeSet node → notes → notes
  | 0, _, _, noted => noted
  | _ + 1, [], _, noted => noted
  | fuel + 1, key :: stack, visited, noted =>
    if visited.contains key then
      explore fuel stack visited noted
    else
      explore fuel (successors key ++ stack) (visited.insert key) (note key noted)

/-- What a search that began with some visited nodes and a stack visits. -/
structure Explored (stack : List node) (visited after : Std.ExtTreeSet node) : Prop where
  kept : ∀ key ∈ visited, key ∈ after
  stacked : ∀ key ∈ stack, key ∈ after
  closed : ∀ key ∈ after, ∀ next ∈ successors key, next ∈ after
  reached : ∀ key ∈ after, key ∈ visited ∨
    ∃ start ∈ stack, Relation.ReflTransGen (Edge successors) start key

end Search

section Exploration

variable [Std.LawfulEqOrd node]
variable {successors : node → List node} {stack : List node}
variable {visited after : Std.ExtTreeSet node}

variable {key : node} {note : node → notes → notes}

theorem mem_insert_iff : other ∈ visited.insert key ↔ other = key ∨ other ∈ visited := by
  rw [Std.ExtTreeSet.mem_insert, Std.LawfulEqCmp.compare_eq_iff_eq, eq_comm]

omit [Std.LawfulEqOrd node] in
theorem Explored.skip (explored : Explored successors stack visited after) (known : key ∈ visited) :
    Explored successors (key :: stack) visited after := by
  refine ⟨explored.kept, ?_, explored.closed, ?_⟩
  · intro other member
    rcases List.mem_cons.mp member with rfl | later
    · exact explored.kept other known
    · exact explored.stacked other later
  · intro other member
    rcases explored.reached other member with before | ⟨start, stacked, walk⟩
    · exact Or.inl before
    · exact Or.inr ⟨start, mem_cons_of_mem _ stacked, walk⟩

theorem Explored.visit
    (explored : Explored successors (successors key ++ stack) (visited.insert key) after) :
    Explored successors (key :: stack) visited after := by
  refine ⟨?_, ?_, explored.closed, ?_⟩
  · intro other member
    exact explored.kept other (mem_insert_iff.mpr (Or.inr member))
  · intro other member
    rcases List.mem_cons.mp member with rfl | later
    · exact explored.kept other (mem_insert_iff.mpr (Or.inl rfl))
    · exact explored.stacked other (mem_append_right _ later)
  · intro other member
    rcases explored.reached other member with before | ⟨start, stacked, walk⟩
    · rcases mem_insert_iff.mp before with rfl | earlier
      · exact Or.inr ⟨other, mem_cons_self, .refl⟩
      · exact Or.inl earlier
    · rcases List.mem_append.mp stacked with next | later
      · exact Or.inr ⟨key, mem_cons_self, .head next walk⟩
      · exact Or.inr ⟨start, mem_cons_of_mem _ later, walk⟩

variable [DecidableEq node]

/-- How many pops are left at most: what is on the stack, and what the nodes
that are still to be visited push. -/
def popsLeft (successors : node → List node) (nodes : Finset node)
    (stack : List node) (visited : Std.ExtTreeSet node) : Nat :=
  stack.length + ∑ key ∈ nodes with ¬ key ∈ visited, (successors key).length

theorem popsLeft_visit (sinks : ∀ other ∉ nodes, successors other = []) (fresh : key ∉ visited) :
    popsLeft successors nodes (successors key ++ stack) (visited.insert key) =
      popsLeft successors nodes stack visited := by
  have shrinks : (nodes.filter fun other => ¬ other ∈ visited.insert key) =
        (nodes.filter fun other => ¬ other ∈ visited).erase key := by
    ext other
    rw [Finset.mem_erase, Finset.mem_filter, Finset.mem_filter, mem_insert_iff, not_or]
    tauto
  rw [popsLeft, popsLeft, shrinks, length_append]
  by_cases member : key ∈ nodes
  · have inside : key ∈ nodes.filter fun other => ¬ other ∈ visited :=
      Finset.mem_filter.mpr ⟨member, fresh⟩
    have total := Finset.add_sum_erase _ (fun other => (successors other).length) inside
    omega
  · have outside : key ∉ nodes.filter fun other => ¬ other ∈ visited :=
      fun inside => member (Finset.mem_filter.mp inside).1
    rw [Finset.erase_eq_of_notMem outside, sinks key member, length_nil, Nat.zero_add]

/-- With fuel for all pops a search visits what the stack leads to.  What the
notes say about the visited nodes stays true. -/
theorem explore_spec (nodes : Finset node) (sinks : ∀ key ∉ nodes, successors key = [])
    (about : Std.ExtTreeSet node → notes → Prop) (visiting : ∀ key visited noted, key ∉ visited →
      about visited noted → about (visited.insert key) (note key noted)) (fuel : Nat) :
    ∀ (stack : List node) (visited : Std.ExtTreeSet node) (noted : notes),
      (∀ key ∈ visited, ∀ next ∈ successors key, next ∈ visited ∨ next ∈ stack) →
      popsLeft successors nodes stack visited ≤ fuel → about visited noted →
      ∃ after, Explored successors stack visited after ∧
      about after (explore successors note fuel stack visited noted) := by
  have finished (visited : Std.ExtTreeSet node) (open' : ∀ key ∈ visited, ∀ next ∈ successors key,
        next ∈ visited ∨ next ∈ ([] : List node)) : Explored successors [] visited visited := by
    refine ⟨fun _ member => member, ?_, ?_, fun _ member => Or.inl member⟩
    · intro key member
      cases member
    · intro key member next isNext
      rcases open' key member next isNext with known | stacked
      · exact known
      · cases stacked
  induction fuel with
  | zero =>
    intro stack visited noted open' enough holds
    have empty : stack = [] := by
      rw [popsLeft] at enough
      exact eq_nil_of_length_eq_zero (by omega)
    subst empty
    exact ⟨visited, finished visited open', holds⟩
  | succ fuel ih =>
    intro stack visited noted open' enough holds
    cases stack with
    | nil => exact ⟨visited, finished visited open', holds⟩
    | cons key stack =>
      rw [explore]
      by_cases known : key ∈ visited
      · rw [if_pos (Std.ExtTreeSet.contains_iff_mem.mpr known)]
        obtain ⟨after, explored, stated⟩ := ih stack visited noted (by
              intro other member next isNext
              rcases open' other member next isNext with before | stacked
              · exact Or.inl before
              · rcases List.mem_cons.mp stacked with rfl | later
                · exact Or.inl known
                · exact Or.inr later)
            (by
              rw [popsLeft] at enough ⊢
              rw [length_cons] at enough
              omega)
            holds
        exact ⟨after, explored.skip known, stated⟩
      · rw [if_neg (fun inside =>
          known (Std.ExtTreeSet.contains_iff_mem.mp inside))]
        obtain ⟨after, explored, stated⟩ := ih (successors key ++ stack)
            (visited.insert key) (note key noted) (by
              intro other member next isNext
              rcases mem_insert_iff.mp member with rfl | earlier
              · exact Or.inr (mem_append_left _ isNext)
              · rcases open' other earlier next isNext with
                  before | stacked
                · exact Or.inl (mem_insert_iff.mpr (Or.inr before))
                · rcases List.mem_cons.mp stacked with rfl | later
                  · exact Or.inl (mem_insert_iff.mpr (Or.inl rfl))
                  · exact Or.inr (mem_append_right _ later))
            (by
              rw [popsLeft_visit sinks known]
              rw [popsLeft] at enough ⊢
              rw [length_cons] at enough
              omega)
            (visiting key visited noted known holds)
        exact ⟨after, explored.visit, stated⟩

/-- A search from the successors of a node visits what the node leads to. -/
theorem explore_from (nodes : Finset node)
    (sinks : ∀ key ∉ nodes, successors key = []) (about : Std.ExtTreeSet node → notes → Prop)
    (visiting : ∀ key visited noted, key ∉ visited →
      about visited noted → about (visited.insert key) (note key noted)) (start : node)
    (enough : (successors start).length + ∑ key ∈ nodes, (successors key).length ≤ fuel)
    (holds : about ∅ noted) : ∃ after : Std.ExtTreeSet node, (∀ key, key ∈ after ↔
      Relation.TransGen (Edge successors) start key) ∧ about after
      (explore successors note fuel (successors start) ∅ noted) := by
  obtain ⟨after, explored, stated⟩ :=
    explore_spec nodes sinks about visiting fuel (successors start) ∅ noted
      (fun _ member => absurd member Std.ExtTreeSet.not_mem_empty)
      (by simpa [popsLeft] using enough) holds
  refine ⟨after, ?_, stated⟩
  intro key
  constructor
  · intro member
    rcases explored.reached key member with none' | ⟨first, edge, walk⟩
    · exact absurd none' Std.ExtTreeSet.not_mem_empty
    · exact Relation.TransGen.head' edge walk
  · intro walk
    induction walk with
    | single edge => exact explored.stacked _ edge
    | tail _ edge ih =>
      exact explored.closed _ ih _ edge

end Exploration

end ForgeCore.Graph
