import ScriptLink.Proofs.Session.Records
import ScriptLink.Proofs.WaitGraph

/-!
# The cycle check

A module asks before it waits whether its dependency leads back to it. This module says that the
question is always answered, and what the answer does to the wait graph.

* **`WaitGraph.Turn.effort`** — every turn of a search uses up one unit of a stock that begins with
  one unit more than the graph has edges, although the stack can grow.
* **`WaitGraph.Sweep.answers_or_turn`** — a search that has no answer yet has a next turn.
* **`WaitGraph.wait?_eq_none_iff`** — in a graph without cycles, exactly the edges that would close
  one are refused.
* **`Session.depend_waits`** — a refusal leaves the graph of a session as it is.
-/

namespace ScriptLink

namespace WaitGraph

/-! ## The search ends -/

section

variable {graph : WaitGraph} {first goal : String} {count : Nat} {sweep after : Sweep}

/-- What is left to do: the nodes to look at, and the edges of the nodes that have not been seen. -/
def Sweep.effort (graph : WaitGraph) (sweep : Sweep) : Nat :=
  sweep.stack.length + graph.unused sweep.seen

theorem Turn.effort (h : graph.Turn goal sweep after) :
    after.effort graph + 1 = sweep.effort graph := by
  cases h with
  | @skip node rest seen _ _ =>
    show rest.length + graph.unused seen + 1 = (rest.length + 1) + graph.unused seen
    omega
  | @expand node rest seen pushed _ hnew horder =>
    -- what the stack gains in targets, the edges of the new node have been worth so far
    have hused : graph.unused (node :: seen) + (graph.targets node).length = graph.unused seen :=
      unused_cons (Bool.eq_false_iff.mpr fun h => hnew (List.contains_iff_mem.mp h))
    show (pushed ++ rest).length + graph.unused (node :: seen) + 1 =
      (rest.length + 1) + graph.unused seen
    rw [List.length_append, horder.length_eq]
    omega

theorem Searches.effort (h : graph.Searches first goal count sweep) :
    count + sweep.effort graph = graph.edges.length + 1 := by
  induction h with
  | start =>
    have hunused : graph.unused [] = graph.edges.length := by simp [unused]
    unfold Sweep.effort
    rw [hunused, List.length_singleton]
    omega
  | turn _ hturn ih =>
    have hspent := hturn.effort
    omega

theorem Sweep.answers_or_turn (graph : WaitGraph) (goal : String) (sweep : Sweep) :
    (∃ answer, sweep.Answers goal answer) ∨ ∃ after, graph.Turn goal sweep after := by
  obtain ⟨stack, seen⟩ := sweep
  cases stack with
  | nil => exact .inl ⟨false, .exhausted seen⟩
  | cons node rest =>
    by_cases hgoal : node = goal
    · subst hgoal
      exact .inl ⟨true, .found rest seen⟩
    · by_cases hseen : node ∈ seen
      · exact .inr ⟨_, .skip hgoal hseen⟩
      · exact .inr ⟨_, .expand hgoal hseen (.refl _)⟩

end

/-! ## The edges that are refused -/

variable {graph : WaitGraph} {importer dependency : String}

/-- The graph with one edge more. -/
def add (graph : WaitGraph) (importer dependency : String) : WaitGraph :=
  ⟨(importer, dependency) :: graph.edges⟩

/-- The edge closes a cycle exactly if there is a way back already. -/
theorem add_acyclic_iff (hacyclic : graph.Acyclic) :
    (graph.add importer dependency).Acyclic ↔ ¬ graph.Leads dependency importer := by
  constructor
  · intro h hback
    exact h importer dependency List.mem_cons_self
      (hback.mono fun _ hedge => List.mem_cons_of_mem _ hedge)
  · intro hfree
    cases hwait : graph.wait? importer dependency with
    | none => exact absurd (leads_iff_leads.mp (wait?_eq_none hwait)) hfree
    | some waits =>
      refine (wait?_acyclic hacyclic hwait).mono fun edge hedge => ?_
      exact ((wait?_eq_some hwait).2 edge).mpr (List.mem_cons.mp hedge)

theorem wait?_eq_none_iff (hacyclic : graph.Acyclic) :
    graph.wait? importer dependency = none ↔ ¬ (graph.add importer dependency).Acyclic := by
  rw [add_acyclic_iff hacyclic, not_not]
  constructor
  · intro hrefused
    exact leads_iff_leads.mp (wait?_eq_none hrefused)
  · intro hback
    cases hwait : graph.wait? importer dependency with
    | none => rfl
    | some waits => exact absurd hback (leads_eq_false_iff.mp (wait?_eq_some hwait).1)

end WaitGraph

namespace Session

/-- What asking for a dependency does to the wait graph, and whether it is waited for. -/
theorem depend_waits (session : Session) (importer specifier : String) :
    let path := Path.resolve importer specifier
    (session.waits.wait? importer path = none →
      (session.depend importer specifier).1.waits = session.waits ∧
        (session.depend importer specifier).2 = ⟨path, .deferred⟩) ∧
    ∀ waits, session.waits.wait? importer path = some waits →
      (session.depend importer specifier).1.waits = waits ∧
        ∃ request, (session.depend importer specifier).2 = ⟨path, .awaited request⟩ := by
  intro path
  unfold depend
  dsimp only
  rw [request_waits, request_path]
  constructor
  · intro hrefused
    rw [hrefused]
    exact ⟨request_waits, rfl⟩
  · intro waits hgranted
    rw [hgranted]
    exact ⟨rfl, _, rfl⟩

/-! ## The law -/

open WaitGraph in
/-- **The cycle check is reachability.** Whatever the wait graph, and in whatever order the targets
of its nodes come, a search takes no more turns than the graph has edges, and one; it goes on until
it has an answer; and the answer says whether a path of no, one or more edges leads from the one
module to the other. The search of the library is one of these. So in a graph without cycles an
edge is refused exactly if it would close one, and the graph of the session stays as it is then;
otherwise exactly this edge is added. -/
theorem cycle_check_is_reachability (graph : WaitGraph) (first goal : String) :
    (graph.leads first goal = true ↔ graph.Leads first goal) ∧
    (∃ count sweep, graph.Searches first goal count sweep ∧
      sweep.Answers goal (graph.leads first goal)) ∧
    (∀ count sweep, graph.Searches first goal count sweep →
      count ≤ graph.edges.length + 1 ∧
      ((∃ answer, sweep.Answers goal answer) ∨ ∃ after, graph.Turn goal sweep after) ∧
      ∀ answer, sweep.Answers goal answer → (answer = true ↔ graph.Leads first goal)) ∧
    (graph.Acyclic → ∀ importer dependency,
      (graph.wait? importer dependency = none ↔ ¬ (graph.add importer dependency).Acyclic) ∧
      ∀ waits, graph.wait? importer dependency = some waits →
        ∀ edge, edge ∈ waits.edges ↔ edge ∈ (graph.add importer dependency).edges) ∧
    ∀ (session : Session) (importer specifier : String), session.waits = graph →
      let path := Path.resolve importer specifier
      (graph.wait? importer path = none →
        (session.depend importer specifier).1.waits = graph ∧
          (session.depend importer specifier).2 = ⟨path, .deferred⟩) ∧
      ∀ waits, graph.wait? importer path = some waits →
        (session.depend importer specifier).1.waits = waits ∧
          ∃ request, (session.depend importer specifier).2 = ⟨path, .awaited request⟩ := by
  refine ⟨leads_iff_leads, (Searches.start : graph.Searches first goal 0 _).search, ?_, ?_, ?_⟩
  · intro count sweep hsearches
    have heffort := hsearches.effort
    exact ⟨by omega, sweep.answers_or_turn graph goal, fun answer => hsearches.answers_iff⟩
  · intro hacyclic importer dependency
    refine ⟨wait?_eq_none_iff hacyclic, fun waits hgranted edge => ?_⟩
    exact ((wait?_eq_some hgranted).2 edge).trans List.mem_cons.symm
  · rintro session importer specifier rfl
    exact depend_waits session importer specifier

/-- A search through a cycle, and an edge that would close one. -/
theorem edge_back_is_refused :
    let cyclic : WaitGraph := ⟨[("a.js", "b.js"), ("b.js", "a.js"), ("b.js", "c.js")]⟩
    let graph : WaitGraph := ⟨[("b.js", "c.js"), ("a.js", "b.js")]⟩
    cyclic.Leads "a.js" "c.js" ∧ ¬ cyclic.Leads "c.js" "a.js" ∧ graph.Acyclic ∧
      graph.wait? "c.js" "a.js" = none ∧ ¬ (graph.add "c.js" "a.js").Acyclic := by
  intro cyclic graph
  have hthere : cyclic.leads "a.js" "c.js" = true := by decide +kernel
  have hback : ¬ cyclic.leads "c.js" "a.js" = true := by decide +kernel
  have hrefused : graph.wait? "c.js" "a.js" = none := by decide +kernel
  have hacyclic : graph.Acyclic := by
    have hfirst : (WaitGraph.empty.add "a.js" "b.js").Acyclic :=
      (WaitGraph.add_acyclic_iff WaitGraph.acyclic_empty).mpr
        (WaitGraph.leads_eq_false_iff.mp (by decide +kernel))
    exact (WaitGraph.add_acyclic_iff hfirst).mpr
      (WaitGraph.leads_eq_false_iff.mp (by decide +kernel))
  obtain ⟨hforwards, -⟩ := cycle_check_is_reachability cyclic "a.js" "c.js"
  obtain ⟨hbackwards, -⟩ := cycle_check_is_reachability cyclic "c.js" "a.js"
  obtain ⟨-, -, -, hedge, -⟩ := cycle_check_is_reachability graph "a.js" "c.js"
  exact ⟨hforwards.mp hthere, fun h => hback (hbackwards.mpr h), hacyclic, hrefused,
    (hedge hacyclic "c.js" "a.js").1.mp hrefused⟩

end Session

end ScriptLink
