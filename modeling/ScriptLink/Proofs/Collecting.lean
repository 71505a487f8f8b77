import Mathlib.Data.List.Induction
import Mathlib.Data.List.Nodup
import ScriptLink.Session.Poll

/-!
# Collecting bindings

The bindings of a module are collected twice: the pass adds those of each import statement to a map,
and then the map is added to the one that the markers have filled. Here both are one collection, of
the markers' entries and of those of the statements, in order.

* **`ImportMap.paths_add`**, **`ImportMap.bindings_add`** — what one entry changes.
* **`ImportMap.addAll_collect`** — adding a collected map is adding its entries one by one, so no
  binding gets lost or moves to another path.
* **`ImportMap.collect_eq`** — the collected map in closed form: each path where it is seen first,
  with its bindings in order.
* **`Linking.requestsOf_collect`** — markers and statements are one sequence of entries.
-/

namespace ScriptLink

namespace ImportMap

variable {map other : ImportMap} {path name : String} {added more : List Binding}
  {entries : List (String × List Binding)}

/-- The bindings of a path. -/
def bindings (map : ImportMap) (path : String) : List Binding := (map.lookup path).getD []

/-- The map that the entries fill, one after the other. -/
def collect (entries : List (String × List Binding)) : ImportMap := addAll [] entries

/-- The bindings that the entries have for a path, in order. -/
def boundBy (entries : List (String × List Binding)) (path : String) : List Binding :=
  (entries.filter (·.1 == path)).flatMap Prod.snd

/-! ## One entry -/

theorem paths_cons (entry : String × List Binding) (map : ImportMap) :
    paths (entry :: map) = entry.1 :: map.paths := rfl

theorem bindings_cons (entry : String × List Binding) (map : ImportMap) :
    bindings (entry :: map) path = if path = entry.1 then entry.2 else map.bindings path := by
  unfold bindings
  rw [List.lookup_cons]
  split
  · next heq => rw [if_pos (eq_of_beq heq), Option.getD_some]
  · next hne => rw [if_neg (ne_of_beq_false hne)]

theorem paths_add : (map.add path added).paths =
    if path ∈ map.paths then map.paths else map.paths ++ [path] := by
  fun_induction add path added map with
  | case1 => rfl
  | case2 before rest =>
    rw [if_pos (by rw [paths_cons]; exact List.mem_cons_self)]
    rfl
  | case3 known before rest hne ih =>
    have hmem : path ∈ paths ((known, before) :: rest) ↔ path ∈ paths rest := by
      rw [paths_cons, List.mem_cons]
      exact or_iff_right (Ne.symm hne)
    simp only [hmem]
    rw [paths_cons, ih, paths_cons]
    split <;> rfl

theorem bindings_add : (map.add path more).bindings name =
    if name = path then map.bindings path ++ more else map.bindings name := by
  fun_induction add path more map with
  | case1 => exact bindings_cons _ _
  | case2 before rest =>
    simp only [bindings_cons]
    split <;> rfl
  | case3 known before rest hne ih =>
    rw [bindings_cons, ih, bindings_cons, bindings_cons, if_neg (Ne.symm hne)]
    dsimp only
    by_cases hname : name = known
    · rw [if_pos hname, if_pos hname, if_neg (hname ▸ hne)]
    · rw [if_neg hname, if_neg hname]

theorem nodup_add (h : map.paths.Nodup) : (map.add path added).paths.Nodup := by
  rw [paths_add]
  split
  · exact h
  · next hnew =>
    rw [← List.concat_eq_append]
    exact h.concat hnew

/-- A map with distinct paths is known from its paths and their bindings. -/
theorem eq_map_bindings (h : map.paths.Nodup) :
    map = map.paths.map fun path => (path, map.bindings path) := by
  induction map with
  | nil => rfl
  | cons entry rest ih =>
    rw [paths_cons, List.nodup_cons] at h
    rw [paths_cons, List.map_cons, bindings_cons, if_pos rfl]
    refine congrArg (entry :: ·) ((ih h.2).trans (List.map_congr_left fun path hmem => ?_))
    have hne : path ≠ entry.1 := fun heq => h.1 (heq ▸ hmem)
    rw [bindings_cons, if_neg hne]

/-! ## Several entries -/

theorem addAll_append (map : ImportMap) (first second : List (String × List Binding)) :
    map.addAll (first ++ second) = (map.addAll first).addAll second :=
  List.foldl_append

theorem collect_append_singleton (entries : List (String × List Binding))
    (entry : String × List Binding) :
    collect (entries ++ [entry]) = (collect entries).add entry.1 entry.2 :=
  addAll_append [] entries [entry]

theorem nodup_addAll (h : map.paths.Nodup) (entries : List (String × List Binding)) :
    (map.addAll entries).paths.Nodup := by
  induction entries generalizing map with
  | nil => exact h
  | cons entry rest ih => exact ih (nodup_add h)

theorem nodup_collect (entries : List (String × List Binding)) : (collect entries).paths.Nodup :=
  nodup_addAll (show (paths []).Nodup from List.Pairwise.nil) entries

theorem path_mem_addAll (h : path ∈ map.paths) (entries : List (String × List Binding)) :
    path ∈ (map.addAll entries).paths := by
  induction entries generalizing map with
  | nil => exact h
  | cons entry rest ih =>
    refine ih ?_
    rw [paths_add]
    split
    · exact h
    · exact List.mem_append_left _ h

theorem add_add : (map.add path added).add path more = map.add path (added ++ more) := by
  fun_induction add path added map with
  | case1 => simp [add]
  | case2 before rest => simp [add]
  | case3 known before rest hne ih => simp only [add, if_neg hne, ih]

/-- A path that is there already keeps its place, so entries of other paths can come in between. -/
theorem add_comm (h : path ∈ map.paths) (hne : name ≠ path) :
    (map.add name added).add path more = (map.add path more).add name added := by
  induction map with
  | nil => exact absurd h List.not_mem_nil
  | cons entry rest ih =>
    obtain ⟨known, before⟩ := entry
    by_cases hpath : known = path
    · have hname : known ≠ name := fun heq => hne (heq.symm.trans hpath)
      simp only [add, if_pos hpath, if_neg hname]
    · by_cases hname : known = name
      · simp only [add, if_neg hpath, if_pos hname]
      · have hrest : path ∈ paths rest := by
          rcases List.mem_cons.mp h with heq | hrest
          · exact absurd heq.symm hpath
          · exact hrest
        simp only [add, if_neg hpath, if_neg hname, ih hrest]

/-- Bindings of a path that is there can as well be added behind entries of other paths. -/
theorem addAll_of_add (h : path ∈ map.paths) (hfree : path ∉ other.paths) :
    (map.add path more).addAll other = (map.addAll other).add path more := by
  induction other generalizing map with
  | nil => rfl
  | cons entry rest ih =>
    rw [paths_cons, List.mem_cons, not_or] at hfree
    show ((map.add path more).add entry.1 entry.2).addAll rest = _
    rw [← add_comm h (Ne.symm hfree.1)]
    refine ih ?_ hfree.2
    exact path_mem_addAll h [entry]

/-- An entry that is added to a map is the last one that the map adds. -/
theorem addAll_add (h : other.paths.Nodup) :
    map.addAll (other.add path more) = (map.addAll other).add path more := by
  induction other generalizing map with
  | nil => rfl
  | cons entry rest ih =>
    obtain ⟨known, before⟩ := entry
    rw [paths_cons, List.nodup_cons] at h
    by_cases hknown : known = path
    · subst hknown
      have hmem : known ∈ (map.add known before).paths := by
        rw [paths_add]
        split
        · next hold => exact hold
        · exact List.mem_append_right _ (List.mem_singleton_self known)
      rw [add, if_pos rfl]
      show (map.add known (before ++ more)).addAll rest = _
      rw [← add_add, addAll_of_add hmem h.1]
      rfl
    · rw [add, if_neg hknown]
      exact ih h.2

/-- **Adding what has been collected is adding the entries one by one.** -/
theorem addAll_collect (map : ImportMap) (entries : List (String × List Binding)) :
    map.addAll (collect entries) = map.addAll entries := by
  induction entries using List.reverseRecOn with
  | nil => rfl
  | append_singleton entries entry ih =>
    rw [collect_append_singleton, addAll_add (nodup_collect entries), ih, addAll_append]
    rfl

theorem paths_collect (entries : List (String × List Binding)) :
    (collect entries).paths = (entries.map Prod.fst).eraseDups := by
  induction entries using List.reverseRecOn with
  | nil => rfl
  | append_singleton entries entry ih =>
    have hknown : entry.1 ∈ (entries.map Prod.fst).eraseDups ↔ entry.1 ∈ entries.map Prod.fst :=
      List.mem_eraseDups
    rw [collect_append_singleton, paths_add, ih, List.map_append, List.eraseDups_append]
    simp only [hknown, List.map_cons, List.map_nil, List.removeAll, List.filter_cons]
    by_cases hmem : entry.1 ∈ entries.map Prod.fst
    · simp [hmem]
    · simp [hmem, List.eraseDups_cons]

theorem bindings_collect (entries : List (String × List Binding)) (path : String) :
    (collect entries).bindings path = boundBy entries path := by
  induction entries using List.reverseRecOn with
  | nil => rfl
  | append_singleton entries entry ih =>
    rw [collect_append_singleton, bindings_add]
    unfold boundBy at ih ⊢
    rw [List.filter_append, List.flatMap_append, ← ih]
    by_cases hpath : path = entry.1
    · subst hpath
      simp
    · simp [hpath, Ne.symm hpath]

/-- **The collected map**: every path where it is seen first, with its bindings in order. -/
theorem collect_eq (entries : List (String × List Binding)) :
    collect entries =
      (entries.map Prod.fst).eraseDups.map fun path => (path, boundBy entries path) := by
  rw [← paths_collect]
  refine (eq_map_bindings (nodup_collect entries)).trans (List.map_congr_left fun path _ => ?_)
  rw [bindings_collect]

end ImportMap

/-- What a marker asks for: its path, and the whole export object under its name, if it has one. -/
def Marker.entry (marker : Marker) : String × List Binding :=
  (marker.path, marker.name.toList.map .whole)

/-- What an import statement asks for. -/
def ImportStatement.entry (statement : ImportStatement) : String × List Binding :=
  (statement.path, statement.bindings)

/-- Markers and statements are collected as one sequence of entries. -/
theorem Linking.requestsOf_collect (markers : List Marker)
    (entries : List (String × List Binding)) :
    Linking.requestsOf markers (ImportMap.collect entries) =
      ImportMap.collect (markers.map Marker.entry ++ entries) := by
  have hmarked : markers.foldl (fun map marker =>
      ImportMap.add marker.path (marker.name.toList.map .whole) map) [] =
      ImportMap.collect (markers.map Marker.entry) := by
    unfold ImportMap.collect ImportMap.addAll
    rw [List.foldl_map]
    rfl
  unfold Linking.requestsOf
  dsimp only
  rw [hmarked, ImportMap.addAll_collect]
  exact (ImportMap.addAll_append [] _ entries).symm

end ScriptLink
