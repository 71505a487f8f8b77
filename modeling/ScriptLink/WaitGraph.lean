/-!
# The wait graph

While a module waits for others, an edge leads from it to each of them. A module may wait
for another only if that other one does not lead back to it: `WaitGraph.wait?` refuses an
edge that would close a cycle, so modules that import each other never wait for each other
for ever.

`WaitGraph.leads` decides whether one module leads to another, by a search that looks at
every module once; `WaitGraph.Leads` is the relation it decides.
-/

namespace ScriptLink

/-- Who waits for whom: pairs of a module and one that it waits for. -/
structure WaitGraph where
  edges : List (String × String)
  deriving Repr

namespace WaitGraph

def empty : WaitGraph := ⟨[]⟩

/-- The modules that `module` waits for. -/
def targets (graph : WaitGraph) (node : String) : List String :=
  (graph.edges.filter fun edge => edge.1 == node).map Prod.snd

/-- A path of no, one or more edges leads from one module to another. -/
inductive Leads (graph : WaitGraph) : String → String → Prop where
  | refl (node : String) : Leads graph node node
  | step {first second last : String} (edge : (first, second) ∈ graph.edges)
      (rest : Leads graph second last) : Leads graph first last

/-! ## The search

Every node is expanded at most once, and expanding it uses up the edges that leave it; so
the nodes still to look at and the edges still unused get fewer together. -/

/-- The number of edges that leave nodes outside of `seen`. -/
def unused (graph : WaitGraph) (seen : List String) : Nat :=
  (graph.edges.filter fun edge => !seen.contains edge.1).length

theorem unused_cons {graph : WaitGraph} {seen : List String} {node : String}
    (h : seen.contains node = false) :
    graph.unused (node :: seen) + (graph.targets node).length = graph.unused seen := by
  unfold unused targets
  rw [List.length_map]
  induction graph.edges with
  | nil => rfl
  | cons edge rest ih =>
    by_cases heq : edge.1 = node
    · simp only [List.filter_cons, List.contains_cons, heq, beq_self_eq_true, Bool.true_or,
        Bool.not_true, Bool.false_eq_true, ↓reduceIte, List.length_cons, h, Bool.not_false]
      simp only [List.contains_cons] at ih
      omega
    · have hbeq : (edge.1 == node) = false := by simpa using heq
      simp only [List.contains_cons] at ih
      simp only [List.filter_cons, List.contains_cons, hbeq, Bool.false_or, Bool.false_eq_true,
        ↓reduceIte]
      split
      · simp only [List.length_cons]; omega
      · exact ih

/-- Whether a node of `stack`, or one that it leads to through nodes outside of `seen`, is
`goal`. -/
def search (graph : WaitGraph) (goal : String) (stack seen : List String) : Bool :=
  match stack with
  | [] => false
  | node :: rest =>
    if node = goal then true
    else if _h : seen.contains node = true then graph.search goal rest seen
    else graph.search goal (graph.targets node ++ rest) (node :: seen)
termination_by stack.length + graph.unused seen
decreasing_by
  · simp only [List.length_cons]; omega
  · have : graph.unused (node :: seen) + (graph.targets node).length = graph.unused seen :=
      unused_cons (Bool.eq_false_iff.2 _h)
    simp only [List.length_append, List.length_cons]; omega

/-- Whether one module leads to another. -/
def leads (graph : WaitGraph) (first last : String) : Bool := graph.search last [first] []

/-! ## Waiting -/

/-- Lets `importer` wait for `dependency`; none if the dependency leads to the importer. -/
def wait? (graph : WaitGraph) (importer dependency : String) : Option WaitGraph :=
  if graph.leads dependency importer then none
  else some ⟨graph.edges.insert (importer, dependency)⟩

/-- Removes everything that `importer` waits for. -/
def release (graph : WaitGraph) (importer : String) : WaitGraph :=
  ⟨graph.edges.filter fun edge => edge.1 != importer⟩

end WaitGraph

end ScriptLink
