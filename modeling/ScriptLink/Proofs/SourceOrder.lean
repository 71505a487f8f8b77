import Mathlib.Data.List.Perm.Subperm
import ScriptLink.Proofs.Rewrite

/-!
# What a pass records, in the order of the source

A pass visits the tokens from the first to the last, and some of them begin something that it takes
down. So whatever it has taken down is a list of what begins where, sorted by the place.

* **`InOrder`** — the places before some token where something begins, with what begins there.
* **`Rewriting.recorded_of_foldlM`** — the run: if each course of a visit takes down what begins at
  its token, or nothing where nothing begins, then the pass takes down all of it in order.
-/

namespace ScriptLink

/-! ## Places in order -/

section

variable {α : Type} {begins : Nat → α → Prop} {count : Nat} {found : List (Nat × α)} {x : α}

/-- These are the places before `count` where something begins, each with what begins there, in
order. -/
structure InOrder (begins : Nat → α → Prop) (count : Nat) (found : List (Nat × α)) : Prop where
  sorted : found.Pairwise fun first second => first.1 < second.1
  mem_iff : ∀ id x, (id, x) ∈ found ↔ id < count ∧ begins id x

namespace InOrder

theorem zero (begins : Nat → α → Prop) : InOrder begins 0 [] where
  sorted := .nil
  mem_iff id _ := iff_of_false List.not_mem_nil fun h => absurd h.1 (Nat.not_lt_zero id)

/-- A place where nothing begins changes nothing. -/
theorem skip (h : InOrder begins count found) (hnone : ∀ x, ¬ begins count x) :
    InOrder begins (count + 1) found where
  sorted := h.sorted
  mem_iff id x := by
    rw [h.mem_iff]
    refine ⟨fun ⟨hid, hbegins⟩ => ⟨by omega, hbegins⟩, fun ⟨hid, hbegins⟩ => ⟨?_, hbegins⟩⟩
    rcases Nat.lt_or_eq_of_le (Nat.le_of_lt_succ hid) with hlt | rfl
    · exact hlt
    · exact absurd hbegins (hnone x)

theorem append (h : InOrder begins count found) (hbegins : begins count x)
    (hunique : ∀ other, begins count other → other = x) :
    InOrder begins (count + 1) (found ++ [(count, x)]) where
  sorted := by
    refine List.pairwise_append.mpr ⟨h.sorted, List.pairwise_singleton _ _, ?_⟩
    intro before hbefore last hlast
    rw [List.mem_singleton.mp hlast]
    exact ((h.mem_iff before.1 before.2).mp hbefore).1
  mem_iff id other := by
    rw [List.mem_append, h.mem_iff, List.mem_singleton]
    constructor
    · rintro (⟨hid, hother⟩ | heq)
      · exact ⟨by omega, hother⟩
      · obtain ⟨rfl, rfl⟩ := Prod.mk.inj heq
        exact ⟨Nat.lt_succ_self id, hbegins⟩
    · rintro ⟨hid, hother⟩
      rcases Nat.lt_or_eq_of_le (Nat.le_of_lt_succ hid) with hlt | rfl
      · exact .inl ⟨hlt, hother⟩
      · exact .inr (by rw [hunique other hother])

/-- What begins somewhere can be seen as something else. -/
theorem map {β : Type} {begins' : Nat → β → Prop} (h : InOrder begins count found) (view : α → β)
    (hbegins : ∀ id y, begins' id y ↔ ∃ x, begins id x ∧ view x = y) :
    InOrder begins' count (found.map fun entry => (entry.1, view entry.2)) where
  sorted := List.pairwise_map.mpr h.sorted
  mem_iff id y := by
    rw [hbegins]
    constructor
    · intro hmem
      obtain ⟨entry, hentry, heq⟩ := List.mem_map.mp hmem
      obtain ⟨rfl, rfl⟩ := Prod.mk.inj heq
      obtain ⟨hid, hbegin⟩ := (h.mem_iff entry.1 entry.2).mp hentry
      exact ⟨hid, entry.2, hbegin, rfl⟩
    · rintro ⟨hid, x, hx, rfl⟩
      exact List.mem_map_of_mem ((h.mem_iff id x).mpr ⟨hid, hx⟩)

/-- Where only one thing begins, it is all there is. -/
theorem eq_singleton {id : Nat} (h : InOrder begins count found) (hid : id < count)
    (hbegins : begins id x) (honly : ∀ j y, begins j y → j = id ∧ y = x) : found = [(id, x)] := by
  have hall : ∀ entry ∈ found, entry = (id, x) := fun entry hmem =>
    Prod.ext_iff.mpr (honly entry.1 entry.2 ((h.mem_iff entry.1 entry.2).mp hmem).2)
  have hmem := (h.mem_iff id x).mpr ⟨hid, hbegins⟩
  match found, h.sorted, hall, hmem with
  | [entry], _, hall, _ => rw [hall entry List.mem_cons_self]
  | first :: second :: _, hsorted, hall, _ =>
    -- two places in order are not the same place
    have hlt := (List.pairwise_cons.mp hsorted).1 second List.mem_cons_self
    rw [hall first List.mem_cons_self,
      hall second (List.mem_cons_of_mem _ List.mem_cons_self)] at hlt
    exact absurd hlt (Nat.lt_irrefl id)

/-- There are no more places than tokens. -/
theorem length_le (h : InOrder begins count found) : found.length ≤ count := by
  have hnodup : (found.map Prod.fst).Nodup := List.pairwise_map.mpr (h.sorted.imp Nat.ne_of_lt)
  have hsubset : found.map Prod.fst ⊆ List.range count := by
    intro id hmem
    obtain ⟨entry, hentry, rfl⟩ := List.mem_map.mp hmem
    exact List.mem_range.mpr ((h.mem_iff entry.1 entry.2).mp hentry).1
  have hlength := (List.subperm_of_subset hnodup hsubset).length_le
  rwa [List.length_map, List.length_range] at hlength

end InOrder

end

/-! ## The run -/

namespace Rewriting

open TokenStream

variable {α : Type} {exportsName : String} {stream : TokenStream} {state : Rewriting}

/-- **What the pass has taken down** after the first `count` tokens, by induction on their number:
`Holds` says how it is kept in the state. -/
theorem recorded_of_foldlM (begins : Nat → α → Prop) (Holds : Rewriting → List α → Prop)
    (hfits : stream.Fits) (hlinked : stream.Linked)
    (hfresh : ∀ j, stream.replacement? j = none)
    (hreached : ∀ id x, begins id x → stream.Reached id)
    (hunique : ∀ id x other, begins id x → begins id other → other = x)
    (hstart : Holds ⟨stream, [], [], 0⟩ [])
    (hcourse : ∀ id state next records, stream.Reached id →
      Course exportsName stream state id next → Holds state records →
      (∃ x, begins id x ∧ Holds next (records ++ [x])) ∨
        (∀ x, ¬ begins id x) ∧ Holds next records)
    (count : Nat) (hcount : count ≤ stream.size)
    (h : (List.range count).foldlM (visit exportsName) ⟨stream, [], [], 0⟩ = .ok state) :
    ∃ found, InOrder begins count found ∧ Holds state (found.map Prod.snd) := by
  induction count generalizing state with
  | zero =>
    obtain rfl := Except.ok.inj h
    exact ⟨[], .zero begins, hstart⟩
  | succ count ih =>
    obtain ⟨before, hbefore, hvisit⟩ := visit_of_foldlM h
    obtain ⟨found, hfound, hholds⟩ := ih (by omega) hbefore
    obtain ⟨acts, hran⟩ := ran_of_foldlM hfits hlinked hfresh count (by omega) hbefore
    rcases Nat.lt_or_ge count before.resume with hskipped | hlooked
    · -- nothing begins inside a statement that has been removed
      obtain rfl : before = state := by
        unfold visit at hvisit
        rw [if_pos hskipped] at hvisit
        exact Except.ok.inj hvisit
      refine ⟨found, hfound.skip fun x hbegins => ?_, hholds⟩
      exact hran.skipped count (Nat.le_refl count) hskipped (hreached count x hbegins)
    · have hcount' : stream.Reached count := by
        rw [← Nat.max_eq_left hlooked]
        exact hran.reached
      rcases hcourse count before state _ hcount'
          (course_of_visit hlinked (by omega) hran.same hlooked hvisit) hholds with
        ⟨x, hbegins, hnext⟩ | ⟨hnone, hnext⟩
      · refine ⟨found ++ [(count, x)], hfound.append hbegins fun other =>
          hunique count x other hbegins, ?_⟩
        rw [List.map_append]
        exact hnext
      · exact ⟨found, hfound.skip hnone, hnext⟩

end Rewriting

end ScriptLink
