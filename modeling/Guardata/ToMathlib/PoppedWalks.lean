import Mathlib.Data.Finset.Basic
import Mathlib.Logic.Relation
import Guardata.ToMathlib.Dict

/-! # A walk over a graph that takes out what it has seen

The successors of each node stand in a dictionary. A walk from a node takes the successors of the node out of the
dictionary, walks on from each of them in turn, and visits the node at the end. What is reached a second time has
no successors any more, so the walk ends, and it has visited what can be reached from its first node. The order
in which the members of a set are walked through is an argument.
-/

namespace PoppedWalks

variable {ν : Type*} [DecidableEq ν] (listed : Finset ν → List ν)

/-- A node is one of the successors that are kept for another. -/
def Edge (graph : Dict ν (Finset ν)) (source target : ν) : Prop :=
  ∃ successors, graph.get? source = some successors ∧ target ∈ successors

/-- Can be reached along edges. -/
def Reaches (graph : Dict ν (Finset ν)) : ν → ν → Prop := Relation.ReflTransGen (Edge graph)

/-- What is visited, and what is left in the dictionary. -/
def popWalk : ℕ → Dict ν (Finset ν) → ν → List ν × Dict ν (Finset ν)
  | 0, graph, _ => ([], graph)
  | fuel + 1, graph, node =>
    let (visited, rest) := (listed ((graph.get? node).getD ∅)).foldl
      (fun walked next => let (more, rest) := popWalk fuel walked.2 next; (walked.1 ++ more, rest))
      ([], graph.erase node)
    (visited ++ [node], rest)

variable {listed} {graph rest : Dict ν (Finset ν)} {node source target : ν}

theorem mem_popWalk_self (fuel : ℕ) : node ∈ (popWalk listed (fuel + 1) graph node).1 := by
  rw [popWalk]
  exact List.mem_append_right _ (List.mem_singleton_self node)

/-- The nodes in a list are taken out of the dictionary. -/
def Popped (graph : Dict ν (Finset ν)) (visited : List ν) (rest : Dict ν (Finset ν)) : Prop :=
  ∀ key, rest.get? key = if key ∈ visited then none else graph.get? key

/-- Every edge from a visited node leads to a visited node. -/
def Closed (graph : Dict ν (Finset ν)) (visited : List ν) : Prop :=
  ∀ source target, Edge graph source target → source ∈ visited → target ∈ visited

theorem Popped.edge_iff {visited : List ν} (popped : Popped graph visited rest) :
    Edge rest source target ↔ source ∉ visited ∧ Edge graph source target := by
  rw [Edge, popped]
  by_cases seen : source ∈ visited <;> simp [seen, Edge]

theorem popped_erase (graph : Dict ν (Finset ν)) (node : ν) : Popped graph [node] (graph.erase node) := by
  intro key
  simp

theorem Popped.append {between : Dict ν (Finset ν)} {first second : List ν} (left : Popped graph first between)
    (right : Popped between second rest) : Popped graph (first ++ second) rest := by
  intro key
  rw [right, left]
  by_cases seen : key ∈ second <;> by_cases early : key ∈ first <;> simp [seen, early]

theorem Popped.reaches {visited : List ν} (popped : Popped graph visited rest) (path : Reaches rest source target) :
    Reaches graph source target :=
  Relation.ReflTransGen.mono (fun _ _ edge => (popped.edge_iff.mp edge).2) _ _ path

/-- A path either comes to a visited node, and then ends in one, or is still there. -/
theorem Popped.mem_or_reaches {visited : List ν} (popped : Popped graph visited rest) (closed : Closed graph visited)
    (path : Reaches graph source target) : target ∈ visited ∨ Reaches rest source target := by
  induction path with
  | refl => exact .inr .refl
  | @tail middle _ _ edge ih =>
    rcases ih with seen | path
    · exact .inl (closed _ _ edge seen)
    · by_cases seen : middle ∈ visited
      · exact .inl (closed _ _ edge seen)
      · exact .inr (path.tail (popped.edge_iff.mpr ⟨seen, edge⟩))

/-- After its last visit to its source, a path does without the edges of the source. -/
theorem reaches_iff_eq_or :
    Reaches graph source target ↔
      target = source ∨ ∃ next, Edge graph source next ∧ Reaches (graph.erase source) next target := by
  have popped := popped_erase graph source
  constructor
  · intro path
    induction path with
    | refl => exact .inl rfl
    | @tail middle last _ edge ih =>
      by_cases same : middle = source
      · exact .inr ⟨last, same ▸ edge, .refl⟩
      · rcases ih with rfl | ⟨next, first, path⟩
        · exact absurd rfl same
        · exact .inr ⟨next, first, path.tail (popped.edge_iff.mpr ⟨by simpa using same, edge⟩)⟩
  · rintro (rfl | ⟨next, first, path⟩)
    · exact .refl
    · exact .head first (popped.reaches path)

/-- A walk visits what can be reached from some nodes, and takes it out. -/
structure Visits (graph : Dict ν (Finset ν)) (starts : List ν) (walked : List ν × Dict ν (Finset ν)) : Prop where
  mem_iff : ∀ target, target ∈ walked.1 ↔ ∃ start ∈ starts, Reaches graph start target
  popped : Popped graph walked.1 walked.2
  length : walked.2.items.length ≤ graph.items.length

theorem Visits.closed {starts : List ν} {walked : List ν × Dict ν (Finset ν)} (visits : Visits graph starts walked) :
    Closed graph walked.1 := by
  intro source target edge seen
  obtain ⟨start, member, path⟩ := (visits.mem_iff source).mp seen
  exact (visits.mem_iff target).mpr ⟨start, member, path.tail edge⟩

theorem visits_nil (graph : Dict ν (Finset ν)) : Visits graph [] ([], graph) where
  mem_iff := by simp
  popped := by intro key; simp
  length := le_rfl

/-- One walk after another visits what both would from the first dictionary. -/
theorem Visits.append {between : Dict ν (Finset ν)} {starts more first second : List ν}
    (left : Visits graph starts (first, between)) (right : Visits between more (second, rest)) :
    Visits graph (starts ++ more) (first ++ second, rest) where
  mem_iff := by
    intro target
    rw [List.mem_append, left.mem_iff, right.mem_iff]
    constructor
    · rintro (⟨start, member, path⟩ | ⟨start, member, path⟩)
      · exact ⟨start, List.mem_append_left _ member, path⟩
      · exact ⟨start, List.mem_append_right _ member, left.popped.reaches path⟩
    · rintro ⟨start, member, path⟩
      rcases List.mem_append.mp member with member | member
      · exact .inl ⟨start, member, path⟩
      · rcases left.popped.mem_or_reaches left.closed path with seen | path
        · exact .inl ((left.mem_iff target).mp seen)
        · exact .inr ⟨start, member, path⟩
  popped := left.popped.append right.popped
  length := right.length.trans left.length

/-- Walks that start in turn from the members of a list. -/
theorem foldl_visits {walk : Dict ν (Finset ν) → ν → List ν × Dict ν (Finset ν)} {size : ℕ}
    (single : ∀ graph : Dict ν (Finset ν), graph.items.length ≤ size → ∀ node, Visits graph [node] (walk graph node))
    {starts done : List ν} {walked : List ν × Dict ν (Finset ν)} (small : graph.items.length ≤ size)
    (before : Visits graph done walked) :
    Visits graph (done ++ starts) (starts.foldl
      (fun walked next => let (more, rest) := walk walked.2 next; (walked.1 ++ more, rest)) walked) := by
  induction starts generalizing done walked with
  | nil => rwa [List.append_nil]
  | cons next others ih =>
    rw [List.foldl_cons, List.append_cons]
    exact ih (before.append (single walked.2 (before.length.trans small) next))

/-- With fuel for each node that has successors, a walk visits exactly what can be reached. -/
theorem popWalk_visits (complete : ∀ members node, node ∈ listed members ↔ node ∈ members) {fuel : ℕ}
    (enough : graph.items.length < fuel) (node : ν) : Visits graph [node] (popWalk listed fuel graph node) := by
  induction fuel generalizing graph node with
  | zero => exact absurd enough (Nat.not_lt_zero _)
  | succ fuel ih =>
    have next_iff (next : ν) : next ∈ listed ((graph.get? node).getD ∅) ↔ Edge graph node next := by
      rw [complete, Edge]
      cases graph.get? node <;> simp
    have inner : Visits (graph.erase node) (listed ((graph.get? node).getD ∅))
        ((listed ((graph.get? node).getD ∅)).foldl
          (fun walked next => let (more, rest) := popWalk listed fuel walked.2 next; (walked.1 ++ more, rest))
          ([], graph.erase node)) := by
      by_cases here : graph.contains node = true
      · have shorter := Dict.length_erase_of_contains here
        exact foldl_visits (fun graph small => ih (by omega)) le_rfl (visits_nil _)
      · -- A node without successors is not walked on from, whatever the fuel.
        have none_next : listed ((graph.get? node).getD ∅) = [] := by
          rw [List.eq_nil_iff_forall_not_mem]
          intro next member
          obtain ⟨successors, found, _⟩ := (next_iff next).mp member
          exact here (Dict.contains_eq_true_iff.mpr ⟨successors, found⟩)
        rw [none_next]
        exact visits_nil _
    rw [popWalk]
    generalize (listed ((graph.get? node).getD ∅)).foldl _ _ = walked at inner ⊢
    obtain ⟨visited, rest⟩ := walked
    refine ⟨fun target => ?_, fun key => ?_, ?_⟩
    · rw [List.mem_append, inner.mem_iff, List.mem_singleton]
      simp only [List.mem_singleton, exists_eq_left, (reaches_iff_eq_or : Reaches graph node target ↔ _),
        next_iff, or_comm]
    · rw [(popped_erase graph node).append inner.popped]
      simp only [List.mem_append, or_comm]
    · refine inner.length.trans ?_
      exact List.length_filter_le _ _

end PoppedWalks
