import ForgeCore.Library.Graph

/-!
# Topological order by counting

The first node whose dependencies are all placed is placed next and counted
off at its dependents.  The order is the least of all that respect the
dependencies.
-/

namespace ForgeCore.Graph

open List

universe u

variable {node : Type u}

variable {order : List node} {key : node}

section Placing

variable (dependencies : node → List node)

def Respects (order : List node) : Prop :=
  ∀ before key after, order = before ++ key :: after →
    ∀ dependency ∈ dependencies key, dependency ∈ before

/-- What holds at every place of a list, and of one more element behind it,
holds at every place of the longer list. -/
theorem forall_split_append {holds : List node → node → Prop}
    (each : ∀ before other after, order = before ++ other :: after → holds before other)
    (last : holds order key) :
    ∀ before other after, order ++ [key] = before ++ other :: after → holds before other := by
  intro before other after split
  rcases eq_nil_or_concat after with rfl | ⟨middle, final, rfl⟩
  · obtain ⟨rfl, same⟩ := append_inj' split rfl
    cases same
    exact last
  · have split' : order ++ [key] = (before ++ other :: middle) ++ [final] := by
      rw [split]
      simp
    obtain ⟨isOrder, -⟩ := append_inj' split' rfl
    exact each before other middle isOrder

theorem Respects.layered (respects : Respects dependencies order) :
    Layered dependencies order.reverse := by
  induction order using List.reverseRecOn with
  | nil => trivial
  | append_singleton order key ih =>
    rw [reverse_append, reverse_singleton, singleton_append]
    refine ⟨?_, ih ?_⟩
    · intro dependency isDependency
      rw [mem_reverse]
      exact respects order key [] rfl dependency isDependency
    · intro before other after split
      exact respects before other (after ++ [key]) (by simp [split])

variable [DecidableEq node]

/-- The dependencies of a node that are placed already. -/
def placedBefore (order : List node) (key : node) : Finset node :=
  (dependencies key).toFinset ∩ order.toFinset

theorem card_placedBefore_le (order : List node) (key : node) :
    (placedBefore dependencies order key).card ≤ (dependencies key).length :=
  (Finset.card_le_card Finset.inter_subset_left).trans
    (toFinset_card_le _)

theorem card_placedBefore_append
    {placed : node} (fresh : placed ∉ order)
    (key : node) :
    (placedBefore dependencies (order ++ [placed]) key).card =
      (placedBefore dependencies order key).card + if placed ∈ dependencies key then 1 else 0 := by
  have grows : (order ++ [placed]).toFinset = insert placed order.toFinset := by
    ext other
    simp
  rw [placedBefore, grows]
  split
  next isDependency =>
    rw [Finset.inter_insert_of_mem (List.mem_toFinset.mpr isDependency),
      Finset.card_insert_of_notMem (by simp [fresh])]
    rfl
  next isNot =>
    rw [Finset.inter_insert_of_notMem (by simpa using isNot)]
    rfl

theorem dependencies_subset_of_card
    (full : (placedBefore dependencies order key).card = (dependencies key).length) :
    ∀ dependency ∈ dependencies key, dependency ∈ order := by
  have whole : placedBefore dependencies order key = (dependencies key).toFinset :=
    Finset.eq_of_subset_of_card_le Finset.inter_subset_left (full ▸ toFinset_card_le _)
  intro dependency member
  have placed : dependency ∈ placedBefore dependencies order key := by
    rw [whole]
    exact List.mem_toFinset.mpr member
  exact List.mem_toFinset.mp (Finset.mem_inter.mp placed).2

theorem card_placedBefore_of_subset (distinct : (dependencies key).Nodup)
    (placed : ∀ dependency ∈ dependencies key, dependency ∈ order) :
    (placedBefore dependencies order key).card = (dependencies key).length := by
  have whole : placedBefore dependencies order key = (dependencies key).toFinset := by
    apply Finset.inter_eq_left.mpr
    intro dependency member
    exact List.mem_toFinset.mpr (placed _ (List.mem_toFinset.mp member))
  rw [whole, toFinset_card_of_nodup distinct]

end Placing

variable [Ord node]

/-- The dependencies that are still awaited, and the nodes that await none. -/
structure Pending (node : Type u) [Ord node] where
  counts : Std.ExtTreeMap node Nat
  ready : Std.ExtTreeSet node

section Algorithm

variable [Std.TransOrd node]

def Pending.release (pending : Pending node) (dependent : node) : Pending node :=
  match pending.counts[dependent]? with
  | none => pending
  | some count =>
    { counts := pending.counts.insert dependent (count - 1)
      ready :=
        if count - 1 = 0 then pending.ready.insert dependent
        else pending.ready }

/-- Place ready nodes, the least one first, until none is ready.  The fuel
bounds the number of nodes. -/
def place (dependents : node → List node) : Nat → Pending node → List node → List node
  | 0, _, order => order
  | fuel + 1, pending, order =>
    match pending.ready.min? with
    | none => order
    | some key =>
      place dependents fuel ((dependents key).foldl Pending.release
          { pending with ready := pending.ready.erase key })
        (order ++ [key])

variable {dependents : node → List node} {pending : Pending node}

theorem place_of_head
    (least : pending.ready.toList.head? = some key) (fuel : Nat)
    (order : List node) :
    place dependents (fuel + 1) pending order = place dependents fuel
        ((dependents key).foldl Pending.release
          { pending with ready := pending.ready.erase key })
        (order ++ [key]) := by
  rw [place, Std.ExtTreeSet.min?_eq_head?_toList, least]

theorem place_of_nil (none' : pending.ready.toList.head? = none) (fuel : Nat) (order : List node) :
    place dependents (fuel + 1) pending order = order := by
  rw [place, Std.ExtTreeSet.min?_eq_head?_toList, none']

end Algorithm

section Release

variable [Std.TransOrd node] [Std.LawfulEqOrd node]

theorem mem_ready_release (pending : Pending node) (dependent key : node) :
    key ∈ (pending.release dependent).ready ↔ key ∈ pending.ready ∨
      dependent = key ∧ ∃ count, pending.counts[key]? = some count ∧ count - 1 = 0 := by
  rw [Pending.release]
  cases counted : pending.counts[dependent]? with
  | none =>
    constructor
    · exact Or.inl
    · rintro (ready | ⟨rfl, count, found, -⟩)
      · exact ready
      · rw [counted] at found
        cases found
  | some count =>
    simp only
    split
    next zero =>
      rw [Std.ExtTreeSet.mem_insert, Std.LawfulEqCmp.compare_eq_iff_eq]
      constructor
      · rintro (rfl | ready)
        · exact Or.inr ⟨rfl, count, counted, zero⟩
        · exact Or.inl ready
      · rintro (ready | ⟨rfl, -⟩)
        · exact Or.inr ready
        · exact Or.inl rfl
    next positive =>
      constructor
      · exact Or.inl
      · rintro (ready | ⟨rfl, other, found, zero⟩)
        · exact ready
        · rw [counted] at found
          cases found
          exact absurd zero positive

variable [DecidableEq node]

theorem getElem?_release
    (pending : Pending node) (dependent key : node) :
    (pending.release dependent).counts[key]? =
      if dependent = key then pending.counts[key]?.map (· - 1)
      else pending.counts[key]? := by
  rw [Pending.release]
  cases counted : pending.counts[dependent]? with
  | none =>
    by_cases same : dependent = key
    · rw [if_pos same, ← same, counted]
      rfl
    · rw [if_neg same]
  | some count =>
    simp only [Std.ExtTreeMap.getElem?_insert, Std.LawfulEqCmp.compare_eq_iff_eq]
    by_cases same : dependent = key
    · rw [if_pos same, if_pos same, ← same, counted]
      rfl
    · rw [if_neg same, if_neg same]

theorem foldl_release
    {dependents : List node} (distinct : dependents.Nodup)
    (pending : Pending node) (key : node) :
    (dependents.foldl Pending.release pending).counts[key]? =
        (if key ∈ dependents then pending.counts[key]?.map (· - 1)
        else pending.counts[key]?) ∧
      (key ∈ (dependents.foldl Pending.release pending).ready ↔ key ∈ pending.ready ∨
          key ∈ dependents ∧ ∃ count, pending.counts[key]? = some count ∧ count - 1 = 0) := by
  induction dependents generalizing pending with
  | nil => simp
  | cons first rest ih =>
    obtain ⟨notLater, restDistinct⟩ := List.nodup_cons.mp distinct
    obtain ⟨counts, ready⟩ := ih restDistinct (pending.release first)
    rw [foldl_cons, counts, ready, getElem?_release, mem_ready_release]
    by_cases isFirst : first = key
    · subst isFirst
      simp [notLater]
    · have notFirst : key ≠ first := Ne.symm isFirst
      simp [isFirst, notFirst]

end Release

section Runs

variable [DecidableEq node] [Std.TransOrd node] [Std.LawfulEqOrd node]
variable (dependencies dependents : node → List node) (nodes : List node)

/-- The dependents are exactly the nodes that name the dependency, each
once. -/
structure Inverts : Prop where
  distinct : ∀ key, (dependents key).Nodup
  mem_iff : ∀ key other, other ∈ dependents key ↔ other ∈ nodes ∧ key ∈ dependencies other

/-- The counts are right for what is placed. -/
structure Counted (pending : Pending node) (order : List node) : Prop where
  counts : ∀ key ∈ nodes, ∃ count, pending.counts[key]? = some count ∧
    count + (placedBefore dependencies order key).card = (dependencies key).length
  ready : ∀ key, key ∈ pending.ready ↔ key ∈ nodes ∧ key ∉ order ∧ pending.counts[key]? = some 0
  placed : ∀ key ∈ order, key ∈ nodes
  distinct : order.Nodup
  respects : Respects dependencies order

variable {dependencies dependents nodes}
variable {pending : Pending node} {order : List node}

section

variable (counted : Counted dependencies nodes pending order)

include counted

omit [Std.LawfulEqOrd node] in
theorem Counted.ready_dependencies (isReady : key ∈ pending.ready) :
    ∀ dependency ∈ dependencies key, dependency ∈ order := by
  obtain ⟨member, -, zero⟩ := (counted.ready key).mp isReady
  obtain ⟨count, found, full⟩ := counted.counts key member
  rw [zero] at found
  cases found
  exact dependencies_subset_of_card dependencies (by omega)

omit [Std.LawfulEqOrd node] in
theorem Counted.placed_dependencies (member : key ∈ order) :
    ∀ dependency ∈ dependencies key, dependency ∈ order := by
  obtain ⟨before, after, split⟩ := append_of_mem member
  intro dependency isDependency
  have earlier := counted.respects before key after split dependency isDependency
  rw [split]
  exact mem_append_left _ earlier

omit [Std.LawfulEqOrd node] in
theorem Counted.awaited {other : node} (isReady : key ∈ pending.ready)
    (member : other ∈ nodes) (awaits : key ∈ dependencies other) :
    ∃ count, pending.counts[other]? = some (count + 1) ∧
      count + (placedBefore dependencies (order ++ [key]) other).card =
      (dependencies other).length := by
  obtain ⟨-, fresh, -⟩ := (counted.ready key).mp isReady
  obtain ⟨count, found, full⟩ := counted.counts other member
  have grown := card_placedBefore_append dependencies fresh other
  rw [if_pos awaits] at grown
  have bound := card_placedBefore_le dependencies (order ++ [key]) other
  obtain ⟨less, rfl⟩ : ∃ less, count = less + 1 := ⟨count - 1, by omega⟩
  exact ⟨less, found, by omega⟩

/-- Placing a ready node keeps the counts right. -/
theorem Counted.place
    (inverts : Inverts dependencies dependents nodes)
    (isReady : key ∈ pending.ready) :
    Counted dependencies nodes
      ((dependents key).foldl Pending.release
        { pending with ready := pending.ready.erase key })
      (order ++ [key]) := by
  obtain ⟨member, fresh, zero⟩ := (counted.ready key).mp isReady
  have dependenciesPlaced := counted.ready_dependencies isReady
  have notOwn : key ∉ dependencies key := fun own =>
    fresh (dependenciesPlaced key own)
  have released (other : node) := foldl_release (inverts.distinct key)
      { pending with ready := pending.ready.erase key } other
  refine ⟨?_, ?_, ?_, ?_, ?_⟩
  · intro other otherMember
    rw [(released other).1]
    by_cases awaits : other ∈ dependents key
    · obtain ⟨-, isDependency⟩ := (inverts.mem_iff key other).mp awaits
      obtain ⟨count, found, full⟩ := counted.awaited isReady otherMember isDependency
      exact ⟨count, by rw [if_pos awaits, found]; rfl, full⟩
    · have notDependency : key ∉ dependencies other := fun isDependency =>
        awaits ((inverts.mem_iff key other).mpr ⟨otherMember, isDependency⟩)
      obtain ⟨count, found, full⟩ := counted.counts other otherMember
      refine ⟨count, by rw [if_neg awaits, found], ?_⟩
      rw [card_placedBefore_append dependencies fresh, if_neg notDependency]
      exact full
  · intro other
    rw [(released other).1, (released other).2]
    simp only [Std.ExtTreeSet.mem_erase, ne_eq, Std.LawfulEqCmp.compare_eq_iff_eq, mem_append,
      mem_singleton, not_or]
    by_cases awaits : other ∈ dependents key
    · -- A node that awaits the placed one is neither placed nor ready.
      obtain ⟨otherMember, isDependency⟩ := (inverts.mem_iff key other).mp awaits
      obtain ⟨count, found, -⟩ := counted.awaited isReady otherMember isDependency
      have notPlaced : other ∉ order := fun placed =>
        fresh (counted.placed_dependencies placed key isDependency)
      have notReady : other ∉ pending.ready := fun ready =>
        fresh (counted.ready_dependencies ready key isDependency)
      have different : other ≠ key := by
        rintro rfl
        exact notOwn isDependency
      simp [awaits, otherMember, notPlaced, notReady, different, found]
    · rw [if_neg awaits, counted.ready other]
      have sides : ¬ key = other ↔ ¬ other = key := not_congr eq_comm
      simp only [awaits, false_and, or_false, sides]
      tauto
  · intro other placed
    rcases List.mem_append.mp placed with before | last
    · exact counted.placed other before
    · rw [List.mem_singleton.mp last]
      exact member
  · exact List.nodup_append.mpr ⟨counted.distinct, nodup_singleton _, by
          intro left leftMember right rightMember same
          rw [List.mem_singleton.mp rightMember] at same
          exact fresh (same ▸ leftMember)⟩
  · exact forall_split_append counted.respects dependenciesPlaced

end

/-- What a run of placements leaves; with fuel for all nodes, none is left
ready. -/
theorem place_counted (inverts : Inverts dependencies dependents nodes) (fuel : Nat) :
    ∀ {pending : Pending node} {order : List node}, Counted dependencies nodes pending order →
      ∃ left : Pending node, Counted dependencies nodes left
      (Graph.place dependents fuel pending order) ∧
      (nodes.length < fuel + order.length → left.ready.min? = none) := by
  induction fuel with
  | zero =>
    intro pending order counted
    refine ⟨pending, counted, ?_⟩
    intro enough
    have short := (subperm_of_subset counted.distinct counted.placed).length_le
    omega
  | succ fuel ih =>
    intro pending order counted
    rw [Graph.place]
    cases least : pending.ready.min? with
    | none => exact ⟨pending, counted, fun _ => least⟩
    | some key =>
      have isReady : key ∈ pending.ready := Std.ExtTreeSet.min?_mem least
      obtain ⟨left, leftCounted, exhausted⟩ := ih (counted.place inverts isReady)
      refine ⟨left, leftCounted, ?_⟩
      intro enough
      apply exhausted
      rw [length_append, length_singleton]
      omega

omit [Std.LawfulEqOrd node] in
theorem Counted.ready_of_placed (counted : Counted dependencies nodes pending order)
    (distinct : (dependencies key).Nodup) (isNode : key ∈ nodes) (notPlaced : key ∉ order)
    (placed : ∀ dependency ∈ dependencies key, dependency ∈ order) : key ∈ pending.ready := by
  obtain ⟨count, found, full⟩ := counted.counts key isNode
  rw [card_placedBefore_of_subset dependencies distinct placed] at full
  have zero : count = 0 := by omega
  exact (counted.ready key).mpr ⟨isNode, notPlaced, zero ▸ found⟩

omit [Std.LawfulEqOrd node] in
/-- Once no node is ready, everything that can be layered is placed. -/
theorem Counted.complete
    (counted : Counted dependencies nodes pending order) (exhausted : pending.ready.min? = none)
    (distinct : ∀ key ∈ nodes, (dependencies key).Nodup)
    (closed : ∀ key ∈ nodes, ∀ dependency ∈ dependencies key, dependency ∈ nodes)
    (layered : Layered dependencies layers) : ∀ key ∈ layers, key ∈ nodes → key ∈ order := by
  induction layers with
  | nil => simp
  | cons first rest ih =>
    have restPlaced := ih layered.2
    intro key member isNode
    rcases List.mem_cons.mp member with rfl | later
    · by_contra notPlaced
      have dependenciesPlaced : ∀ dependency ∈ dependencies key, dependency ∈ order :=
        fun dependency isDependency =>
          restPlaced dependency (layered.1 dependency isDependency)
            (closed key isNode dependency isDependency)
      have isReady := counted.ready_of_placed (distinct key isNode) isNode notPlaced
          dependenciesPlaced
      rw [Std.ExtTreeSet.min?_eq_none_iff] at exhausted
      rw [exhausted] at isReady
      exact Std.ExtTreeSet.not_mem_empty isReady
    · exact restPlaced key later isNode

end Runs

section Least

variable [Std.TransOrd node] [Std.LawfulEqOrd node] [DecidableEq node]
variable (dependencies : node → List node) (nodes : List node)

/-- Each node is the least of those that could stand in its place. -/
def Greedy (order : List node) : Prop :=
  ∀ before key after, order = before ++ key :: after → ∀ other ∈ nodes, other ∉ before →
      (∀ dependency ∈ dependencies other, dependency ∈ before) → (compare key other).isLE = true

variable {dependencies nodes}
variable {dependents : node → List node}

theorem place_greedy (inverts : Inverts dependencies dependents nodes)
    (distinct : ∀ key ∈ nodes, (dependencies key).Nodup) (fuel : Nat) :
    ∀ {pending : Pending node} {order : List node}, Counted dependencies nodes pending order →
      Greedy dependencies nodes order → Greedy dependencies nodes
      (Graph.place dependents fuel pending order) := by
  induction fuel with
  | zero =>
    intro pending order counted greedy
    exact greedy
  | succ fuel ih =>
    intro pending order counted greedy
    rw [Graph.place]
    cases least : pending.ready.min? with
    | none => exact greedy
    | some key =>
      have isReady : key ∈ pending.ready := Std.ExtTreeSet.min?_mem least
      apply ih (counted.place inverts isReady)
      apply forall_split_append greedy
      intro other member fresh placed
      have otherReady := counted.ready_of_placed (distinct other member) member fresh placed
      exact Std.ExtTreeSet.min?_le_of_mem otherReady (by simp [least])

omit [Std.TransOrd node] in
/-- A greedy order comes before every other order of the same length that
respects the dependencies. -/
theorem Greedy.lex (greedy : Greedy dependencies nodes order)
    (inside : ∀ key ∈ other, key ∈ nodes) (distinct : other.Nodup)
    (respects : Respects dependencies other) (sameLength : order.length = other.length) :
    order = other ∨ List.Lex (fun first second => compare first second = .lt) order other := by
  have behind : ∀ before rest more : List node, order = before ++ rest → other = before ++ more →
        rest = more ∨ List.Lex (fun first second => compare first second = .lt) rest more := by
    intro before rest
    induction rest generalizing before with
    | nil =>
      intro more isOrder isOther
      rw [isOrder, isOther, length_append, length_append, length_nil] at sameLength
      exact Or.inl (List.length_eq_zero_iff.mp (by omega)).symm
    | cons key after ih =>
      intro more isOrder isOther
      cases more with
      | nil =>
        rw [isOrder, isOther, length_append, length_append, length_cons, length_nil] at sameLength
        omega
      | cons next later =>
        have notGreater : (compare key next).isLE = true := by
          apply greedy before key after isOrder next
          · exact inside next (by simp [isOther])
          · rw [isOther] at distinct
            exact fun earlier =>
              (List.nodup_append.mp distinct).2.2 next earlier next mem_cons_self rfl
          · exact respects before next later isOther
        cases order' : compare key next with
        | lt => exact Or.inr (.rel order')
        | gt =>
          rw [order'] at notGreater
          cases notGreater
        | eq =>
          cases Std.LawfulEqCmp.eq_of_compare order'
          rcases ih (before ++ [key]) later (by simpa using isOrder) (by simpa using isOther) with
            same | less
          · exact Or.inl (congrArg (key :: ·) same)
          · exact Or.inr (.cons less)
  exact behind [] order other rfl rfl

end Least

end ForgeCore.Graph
