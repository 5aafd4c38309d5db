import Mathlib

/-!
# Cycles in finite graphs

A depth-first search that reports a cycle, over a graph that is given by the
successors of every node.  A search that reports none leaves the nodes it
visited in a list in which the successors of a node stand behind it.
-/

namespace ForgeCore.Graph

open List

universe u

variable {node : Type u} (successors : node → List node)

def Edge (source target : node) : Prop := target ∈ successors source

/-- No node of the list lies on a cycle. -/
def Acyclic (nodes : List node) : Prop :=
  ∀ start ∈ nodes, ¬ Relation.TransGen (Edge successors) start start

/-- The successors of every node stand behind it. -/
def Layered : List node → Prop
  | [] => True
  | first :: rest => (∀ next ∈ successors first, next ∈ rest) ∧ Layered rest

variable {successors}

variable {nodes path : List node}

theorem Layered.edge_mem (layered : Layered successors nodes) (member : source ∈ nodes)
    (edge : Edge successors source target) : target ∈ nodes := by
  induction nodes with
  | nil => cases member
  | cons first rest ih =>
    rcases List.mem_cons.mp member with rfl | later
    · exact mem_cons_of_mem _ (layered.1 target edge)
    · exact mem_cons_of_mem _ (ih layered.2 later)

theorem Layered.walk_mem (layered : Layered successors nodes) (member : source ∈ nodes)
    (walk : Relation.TransGen (Edge successors) source target) : target ∈ nodes := by
  induction walk with
  | single edge => exact layered.edge_mem member edge
  | tail _ edge ih =>
    exact layered.edge_mem ih edge

theorem Layered.acyclic (layered : Layered successors nodes) : Acyclic successors nodes := by
  induction nodes with
  | nil => simp [Acyclic]
  | cons first rest ih =>
    have restAcyclic := ih layered.2
    intro start member cycle
    rcases List.mem_cons.mp member with rfl | later
    · -- The cycle enters the rest with its first edge and cannot leave it.
      obtain ⟨next, edge, walk⟩ := Relation.TransGen.head'_iff.mp cycle
      have inRest := layered.1 next edge
      have back : start ∈ rest := by
        rcases Relation.reflTransGen_iff_eq_or_transGen.mp walk with
          same | onward
        · rwa [same]
        · exact layered.2.walk_mem inRest onward
      exact restAcyclic start back cycle
    · exact restAcyclic start later cycle

/-- Every node of the path leads to the key. -/
def Leads (successors : node → List node) (path : List node) (key : node) : Prop :=
  ∀ earlier ∈ path, Relation.TransGen (Edge successors) earlier key

theorem Leads.next
    {key next : node} (leads : Leads successors path key) (edge : Edge successors key next) :
    Leads successors (key :: path) next := by
  intro earlier member
  rcases List.mem_cons.mp member with rfl | before
  · exact .single edge
  · exact (leads earlier before).tail edge

section Search

variable [DecidableEq node] (successors)

/-- Visit a node behind the path that led to it; `none` is a cycle.  The fuel
bounds the length of the path. -/
def visit : Nat → List node → node → List node → Option (List node)
  | 0, _, _, _ => none
  | fuel + 1, path, key, visited =>
    if key ∈ visited then
      some visited
    else if key ∈ path then
      none
    else
      ((successors key).foldlM (fun seen next => visit fuel (key :: path) next seen)
        visited).map (key :: ·)

def visitAll (fuel : Nat) (path keys visited : List node) : Option (List node) :=
  keys.foldlM (fun seen next => visit successors fuel path next seen) visited

/-- What a visit adds to the nodes visited before. -/
structure Extends (visited after : List node) : Prop where
  grows : visited ⊆ after
  layered : Layered successors after

variable {successors}

variable {fuel : Nat} {keys : List node}

theorem visitAll_extends
    (each : ∀ {key : node} {visited after : List node}, Layered successors visited →
      visit successors fuel path key visited = some after →
      Extends successors visited after ∧ key ∈ after) :
    ∀ {visited after : List node}, Layered successors visited →
      visitAll successors fuel path keys visited = some after →
      Extends successors visited after ∧ ∀ key ∈ keys, key ∈ after := by
  induction keys with
  | nil =>
    intro visited after layered found
    cases found
    exact ⟨⟨List.Subset.refl _, layered⟩, by simp⟩
  | cons first rest ih =>
    intro visited after layered found
    rw [visitAll, foldlM_cons, Option.bind_eq_bind, Option.bind_eq_some_iff] at found
    obtain ⟨middle, firstFound, restFound⟩ := found
    obtain ⟨firstExtends, firstMember⟩ := each layered firstFound
    obtain ⟨restExtends, restMembers⟩ := ih firstExtends.layered restFound
    refine ⟨⟨List.Subset.trans firstExtends.grows restExtends.grows, restExtends.layered⟩, ?_⟩
    intro key member
    rcases List.mem_cons.mp member with rfl | later
    · exact restExtends.grows firstMember
    · exact restMembers key later

theorem visit_extends :
    ∀ {path : List node} {key : node} {visited after : List node}, Layered successors visited →
      visit successors fuel path key visited = some after →
      Extends successors visited after ∧ key ∈ after := by
  induction fuel with
  | zero =>
    intro path key visited after _ found
    cases found
  | succ fuel ih =>
    intro path key visited after layered found
    rw [visit] at found
    split at found
    next seen =>
      cases found
      exact ⟨⟨List.Subset.refl _, layered⟩, seen⟩
    next =>
      split at found
      next => cases found
      next =>
        obtain ⟨below, walked, rfl⟩ := Option.map_eq_some_iff.mp found
        obtain ⟨extends', members⟩ := visitAll_extends ih layered walked
        exact ⟨⟨fun earlier member =>
              mem_cons_of_mem _ (extends'.grows member),
            members, extends'.layered⟩, mem_cons_self⟩

/-- A search that reports no cycle visited every node it was given, in
layers. -/
theorem visitAll_layered
    {after : List node} (found : visitAll successors fuel [] keys [] = some after) :
    Layered successors after ∧ ∀ key ∈ keys, key ∈ after := by
  obtain ⟨extends', members⟩ :=
    visitAll_extends visit_extends (show Layered successors [] from trivial) found
  exact ⟨extends'.layered, members⟩

theorem visitAll_isSome (each : ∀ key ∈ keys, ∀ visited : List node,
      (visit successors fuel path key visited).isSome = true) (visited : List node) :
    (visitAll successors fuel path keys visited).isSome = true := by
  induction keys generalizing visited with
  | nil => rfl
  | cons first rest ih =>
    obtain ⟨middle, found⟩ := Option.isSome_iff_exists.mp (each first mem_cons_self visited)
    rw [visitAll, foldlM_cons, found]
    exact ih (fun key member => each key (mem_cons_of_mem _ member)) middle

/-- In an acyclic graph the search reports no cycle, given fuel for a path
through all its nodes. -/
theorem visit_isSome
    {graph : List node} (closed : ∀ key ∈ graph, ∀ next ∈ successors key, next ∈ graph)
    (acyclic : Acyclic successors graph) :
    ∀ {path : List node} {key : node}, path.Nodup → path ⊆ graph → key ∈ graph →
      Leads successors path key → graph.length < fuel + path.length → ∀ visited : List node,
      (visit successors fuel path key visited).isSome = true := by
  induction fuel with
  | zero =>
    intro path key distinct inside _ _ enough visited
    have short := (subperm_of_subset distinct inside).length_le
    omega
  | succ fuel ih =>
    intro path key distinct inside member leads enough visited
    rw [visit]
    split
    next => rfl
    next =>
      split
      next onPath =>
        exact absurd (leads key onPath) (acyclic key member)
      next notOnPath =>
        rw [Option.isSome_map]
        apply visitAll_isSome
        intro next isNext seen
        apply ih
        · exact List.nodup_cons.mpr ⟨notOnPath, distinct⟩
        · exact List.cons_subset.mpr ⟨member, inside⟩
        · exact closed key member next isNext
        · exact leads.next isNext
        · simp only [length_cons]
          omega

theorem Acyclic.exists_layered {graph : List node} (acyclic : Acyclic successors graph)
    (closed : ∀ key ∈ graph, ∀ next ∈ successors key, next ∈ graph) :
    ∃ layers, Layered successors layers ∧ ∀ key ∈ graph, key ∈ layers := by
  have found : (visitAll successors (graph.length + 1) [] graph []).isSome = true := by
    apply visitAll_isSome
    intro key member visited
    exact visit_isSome closed acyclic nodup_nil
      (nil_subset _) member (by simp [Leads]) (by simp) visited
  obtain ⟨layers, visited⟩ := Option.isSome_iff_exists.mp found
  exact ⟨layers, visitAll_layered visited⟩

end Search

end ForgeCore.Graph
