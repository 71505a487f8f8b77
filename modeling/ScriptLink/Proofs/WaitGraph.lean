import ScriptLink.WaitGraph

/-!
# The wait graph: reachability and cycles

`WaitGraph.leads` is a search with a stack and a list of the nodes it has seen;
`WaitGraph.Leads` is the relation that it is to decide. This module proves the two equal and
derives what the session needs to know about cycles.

* **`Searches`** — a search turn by turn, where the targets of a node may come in any order.
  `Searches.answers_iff`: what it answers in the end is right.
* **`leads_iff_leads`** — the search of the library is one of these, so it answers true exactly
  along a path of no, one or more edges.
* **`Acyclic`** — no edge leads back to where it comes from. The empty graph is acyclic, and
  `release` takes edges away only.
* **`wait?_acyclic`** — an edge that `wait?` grants closes no cycle.
* **`leads_of_own_edges`** — edges that start at `goal` are of no use for reaching `goal`.
  While a module requests its dependencies one after the other, each is therefore judged by
  the graph as it was before the first.
-/

namespace ScriptLink

namespace WaitGraph

/-! ## Paths -/

theorem Leads.trans {graph : WaitGraph} {first second last : String}
    (h1 : graph.Leads first second) (h2 : graph.Leads second last) : graph.Leads first last := by
  induction h1 with
  | refl _ => exact h2
  | step hedge _ ih => exact .step hedge (ih h2)

theorem Leads.single {graph : WaitGraph} {first last : String}
    (hedge : (first, last) ∈ graph.edges) : graph.Leads first last :=
  .step hedge (.refl last)

/-- A graph with more edges has more paths. -/
theorem Leads.mono {graph larger : WaitGraph} (hsub : ∀ edge ∈ graph.edges, edge ∈ larger.edges)
    {first last : String} (h : graph.Leads first last) : larger.Leads first last := by
  induction h with
  | refl node => exact .refl node
  | step hedge _ ih => exact .step (hsub _ hedge) ih

/-- A path that goes anywhere begins with an edge. -/
theorem Leads.eq_or_edge {graph : WaitGraph} {first last : String}
    (h : graph.Leads first last) : first = last ∨ ∃ next, (first, next) ∈ graph.edges := by
  cases h with
  | refl _ => exact Or.inl rfl
  | step hedge _ => exact Or.inr ⟨_, hedge⟩

theorem mem_targets {graph : WaitGraph} {node target : String} :
    target ∈ graph.targets node ↔ (node, target) ∈ graph.edges := by
  unfold targets
  rw [List.mem_map]
  constructor
  · rintro ⟨⟨first, last⟩, hmem, rfl⟩
    rw [List.mem_filter, beq_iff_eq] at hmem
    obtain ⟨hmem, rfl⟩ := hmem
    exact hmem
  · intro hmem
    exact ⟨(node, target), List.mem_filter.mpr ⟨hmem, beq_self_eq_true node⟩, rfl⟩

/-! ## The search decides reachability

The search is taken apart into turns, and a turn may put the targets of a node on the stack in any
order: what is proved of the turns holds however the targets come. Two things are kept by every
turn. What is on the stack can be reached; and what has been seen has been expanded, so that its
targets have been seen as well or are still to come. When the stack is empty, nothing leads out of
the nodes seen. -/

/-- A search under way: the nodes to look at and the nodes seen. -/
structure Sweep where
  stack : List String
  seen : List String

/-- What a search answers once it looks at its goal or has nothing left to look at. -/
inductive Sweep.Answers (goal : String) : Sweep → Bool → Prop where
  | found (rest seen : List String) : Answers goal ⟨goal :: rest, seen⟩ true
  | exhausted (seen : List String) : Answers goal ⟨[], seen⟩ false

/-- One turn of a search: the first node is dropped if it has been seen, and gives way to its
targets otherwise, which come in some order. -/
inductive Turn (graph : WaitGraph) (goal : String) : Sweep → Sweep → Prop where
  | skip {node : String} {rest seen : List String} (hne : node ≠ goal) (hseen : node ∈ seen) :
      Turn graph goal ⟨node :: rest, seen⟩ ⟨rest, seen⟩
  | expand {node : String} {rest seen pushed : List String} (hne : node ≠ goal)
      (hnew : node ∉ seen) (horder : pushed.Perm (graph.targets node)) :
      Turn graph goal ⟨node :: rest, seen⟩ ⟨pushed ++ rest, node :: seen⟩

/-- So many turns lead a search for `goal` from `first` alone to where it is. -/
inductive Searches (graph : WaitGraph) (first goal : String) : Nat → Sweep → Prop where
  | start : Searches graph first goal 0 ⟨[first], []⟩
  | turn {count : Nat} {sweep after : Sweep} (before : Searches graph first goal count sweep)
      (h : Turn graph goal sweep after) : Searches graph first goal (count + 1) after

/-- What every turn keeps of a search from `first` for `goal`. -/
structure Sweep.Explores (graph : WaitGraph) (first goal : String) (sweep : Sweep) : Prop where
  reached : ∀ node ∈ sweep.stack, graph.Leads first node
  start : first ∈ sweep.stack ∨ first ∈ sweep.seen
  expanded : ∀ node ∈ sweep.seen, node ≠ goal ∧
    ∀ target, (node, target) ∈ graph.edges → target ∈ sweep.stack ∨ target ∈ sweep.seen

section

variable {graph : WaitGraph} {first goal : String} {count : Nat} {sweep after : Sweep}
  {answer : Bool}

theorem Turn.explores (h : graph.Turn goal sweep after)
    (hexplores : sweep.Explores graph first goal) : after.Explores graph first goal := by
  obtain ⟨hreached, hstart, hexpanded⟩ := hexplores
  cases h with
  | @skip node rest seen _ hseen =>
    -- the node has been seen before, so the stack can do without it
    have hkept (other : String) (hother : other ∈ node :: rest ∨ other ∈ seen) :
        other ∈ rest ∨ other ∈ seen := by
      rcases hother with hstack | hold
      · rcases List.mem_cons.mp hstack with rfl | hrest
        · exact .inr hseen
        · exact .inl hrest
      · exact .inr hold
    exact ⟨fun other hother => hreached other (List.mem_cons_of_mem _ hother), hkept first hstart,
      fun other hother => ⟨(hexpanded other hother).1, fun target hedge =>
        hkept target ((hexpanded other hother).2 target hedge)⟩⟩
  | @expand node rest seen pushed hne _ horder =>
    -- the node moves from the stack to the seen ones, and its targets take its place
    have hpushed (target : String) : target ∈ pushed ↔ (node, target) ∈ graph.edges :=
      horder.mem_iff.trans mem_targets
    have hkept (other : String) (hother : other ∈ node :: rest ∨ other ∈ seen) :
        other ∈ pushed ++ rest ∨ other ∈ node :: seen := by
      rcases hother with hstack | hold
      · rcases List.mem_cons.mp hstack with rfl | hrest
        · exact .inr List.mem_cons_self
        · exact .inl (List.mem_append_right _ hrest)
      · exact .inr (List.mem_cons_of_mem _ hold)
    refine ⟨fun other hother => ?_, hkept first hstart, fun other hother => ?_⟩
    · rcases List.mem_append.mp hother with htarget | hrest
      · exact (hreached node List.mem_cons_self).trans (.single ((hpushed other).mp htarget))
      · exact hreached other (List.mem_cons_of_mem _ hrest)
    · rcases List.mem_cons.mp hother with rfl | hold
      · exact ⟨hne, fun target hedge =>
          .inl (List.mem_append_left _ ((hpushed target).mpr hedge))⟩
      · exact ⟨(hexpanded other hold).1, fun target hedge =>
          hkept target ((hexpanded other hold).2 target hedge)⟩

theorem Searches.explores (h : graph.Searches first goal count sweep) :
    sweep.Explores graph first goal := by
  induction h with
  | start =>
    refine ⟨fun node hnode => ?_, .inl List.mem_cons_self,
      fun _ hnode => absurd hnode List.not_mem_nil⟩
    rw [List.mem_singleton.mp hnode]
    exact .refl first
  | turn _ hturn ih => exact hturn.explores ih

/-- Nodes that are closed under the edges and miss the goal do not lead to it. -/
theorem Sweep.Explores.not_leads {seen : List String}
    (h : Sweep.Explores graph first goal ⟨[], seen⟩) {node : String} (hmem : node ∈ seen) :
    ¬ graph.Leads node goal := by
  intro hleads
  induction hleads with
  | refl node => exact (h.expanded node hmem).1 rfl
  | step hedge _ ih =>
    rcases (h.expanded _ hmem).2 _ hedge with hnone | hseen
    · exact absurd hnone List.not_mem_nil
    · exact ih h hseen

/-- **An answer is right**, in whatever order the search came to it. -/
theorem Searches.answers_iff (h : graph.Searches first goal count sweep)
    (hanswer : sweep.Answers goal answer) : answer = true ↔ graph.Leads first goal := by
  have hexplores := h.explores
  cases hanswer with
  | found rest seen => exact iff_of_true rfl (hexplores.reached goal List.mem_cons_self)
  | exhausted seen =>
    have hseen : first ∈ seen := hexplores.start.resolve_left List.not_mem_nil
    exact iff_of_false (by simp) (hexplores.not_leads hseen)

/-- The search of the library takes the targets as the graph lists them. -/
theorem Searches.search (h : graph.Searches first goal count sweep) :
    ∃ last final, graph.Searches first goal last final ∧
      final.Answers goal (graph.search goal sweep.stack sweep.seen) := by
  obtain ⟨stack, seen⟩ := sweep
  dsimp only
  fun_induction WaitGraph.search graph goal stack seen generalizing count with
  | case1 seen => exact ⟨count, _, h, .exhausted seen⟩
  | case2 seen rest => exact ⟨count, _, h, .found rest seen⟩
  | case3 seen node rest hne hseen ih =>
    exact ih (h.turn (.skip hne (List.contains_iff_mem.mp hseen)))
  | case4 seen node rest hne hnew ih =>
    exact ih (h.turn (.expand hne (fun hseen => hnew (List.contains_iff_mem.mpr hseen)) (.refl _)))

end

/-- **The search decides reachability**, on every graph, with cycles or without. -/
theorem leads_iff_leads {graph : WaitGraph} {first last : String} :
    graph.leads first last = true ↔ graph.Leads first last := by
  obtain ⟨_, _, hsearches, hanswers⟩ := (Searches.start : graph.Searches first last 0 _).search
  exact hsearches.answers_iff hanswers

theorem leads_eq_false_iff {graph : WaitGraph} {first last : String} :
    graph.leads first last = false ↔ ¬ graph.Leads first last := by
  rw [← leads_iff_leads, Bool.not_eq_true]

/-! ## Cycles -/

/-- No edge leads back to where it comes from. -/
def Acyclic (graph : WaitGraph) : Prop :=
  ∀ first next, (first, next) ∈ graph.edges → ¬ graph.Leads next first

theorem acyclic_empty : empty.Acyclic := fun _ _ hedge => absurd hedge List.not_mem_nil

/-- A graph with fewer edges has fewer cycles. -/
theorem Acyclic.mono {graph smaller : WaitGraph} (h : graph.Acyclic)
    (hsub : ∀ edge ∈ smaller.edges, edge ∈ graph.edges) : smaller.Acyclic :=
  fun first next hedge hleads => h first next (hsub _ hedge) (hleads.mono hsub)

theorem mem_release {graph : WaitGraph} {importer : String} {edge : String × String} :
    edge ∈ (graph.release importer).edges ↔ edge ∈ graph.edges ∧ edge.1 ≠ importer := by
  simp [release]

/-- What `wait?` grants: the dependency does not lead to the importer, and one edge is added. -/
theorem wait?_eq_some {graph waits : WaitGraph} {importer dependency : String}
    (h : graph.wait? importer dependency = some waits) :
    graph.leads dependency importer = false ∧
      ∀ edge, edge ∈ waits.edges ↔ edge = (importer, dependency) ∨ edge ∈ graph.edges := by
  unfold wait? at h
  split at h
  · exact absurd h (by simp)
  · next hleads =>
    rw [Option.some.injEq] at h
    subst h
    exact ⟨by simpa using hleads, fun edge => List.mem_insert_iff⟩

theorem wait?_eq_none {graph : WaitGraph} {importer dependency : String}
    (h : graph.wait? importer dependency = none) : graph.leads dependency importer = true := by
  unfold wait? at h
  split at h
  · next hleads => exact hleads
  · exact absurd h (by simp)

/-- A path in a graph with one edge more either avoids the edge or goes through it, and then
its ends meet the edge without it. -/
theorem Leads.of_added {graph larger : WaitGraph} {importer dependency : String}
    (hedges : ∀ edge, edge ∈ larger.edges → edge = (importer, dependency) ∨ edge ∈ graph.edges)
    {first last : String} (h : larger.Leads first last) :
    graph.Leads first last ∨ (graph.Leads first importer ∧ graph.Leads dependency last) := by
  induction h with
  | refl node => exact Or.inl (.refl node)
  | step hedge _ ih =>
    rcases hedges _ hedge with heq | hold
    · obtain ⟨rfl, rfl⟩ := Prod.mk.inj heq
      rcases ih with hdirect | ⟨_, hdirect⟩
      · exact Or.inr ⟨.refl _, hdirect⟩
      · exact Or.inr ⟨.refl _, hdirect⟩
    · rcases ih with hdirect | ⟨hto, hfrom⟩
      · exact Or.inl (.step hold hdirect)
      · exact Or.inr ⟨.step hold hto, hfrom⟩

/-- **An edge that is granted closes no cycle.** -/
theorem wait?_acyclic {graph waits : WaitGraph} {importer dependency : String}
    (h : graph.Acyclic) (hwait : graph.wait? importer dependency = some waits) :
    waits.Acyclic := by
  obtain ⟨hfree, hedges⟩ := wait?_eq_some hwait
  have hfree : ¬ graph.Leads dependency importer := leads_eq_false_iff.mp hfree
  intro first next hedge hback
  -- the way back has been there before, or it meets the new edge at both ends
  have hback := hback.of_added fun edge => (hedges edge).mp
  rcases (hedges _).mp hedge with heq | hold
  · obtain ⟨rfl, rfl⟩ := Prod.mk.inj heq
    rcases hback with hdirect | ⟨_, hdirect⟩
    · exact hfree hdirect
    · exact hfree hdirect
  · rcases hback with hdirect | ⟨hto, hfrom⟩
    · exact h first next hold hdirect
    · exact hfree (hfrom.trans (.step hold hto))

/-- **A module's own edges do not help to reach it.** -/
theorem leads_of_own_edges {graph larger : WaitGraph} {goal : String}
    (hsub : ∀ edge ∈ graph.edges, edge ∈ larger.edges)
    (hown : ∀ edge ∈ larger.edges, edge ∈ graph.edges ∨ edge.1 = goal) (first : String) :
    larger.leads first goal = graph.leads first goal := by
  rw [Bool.eq_iff_iff, leads_iff_leads, leads_iff_leads]
  constructor
  · intro h
    induction h with
    | refl node => exact .refl node
    | step hedge _ ih =>
      rcases hown _ hedge with hold | rfl
      · exact .step hold (ih hown)
      · -- where an edge of the goal begins, the goal has been reached
        exact .refl _
  · exact Leads.mono hsub

end WaitGraph

end ScriptLink
