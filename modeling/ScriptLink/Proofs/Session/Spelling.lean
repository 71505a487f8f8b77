import ScriptLink.Proofs.CanonicalPath
import ScriptLink.Proofs.Session.Once

/-!
# Spellings of a path

A module can be requested in many ways: with `.` and `..` on the way, from one directory or another.
The record is found under the resolved path, so all of them come to one load. But the loader is
picked by the suffix of the specifier as it is written, and that need not be the suffix of the path:
`main.js/.` names `main.js` and has an empty suffix, and `./README` names `README` and has the
suffix `/README`.

* **`Path.HasExtension`** — specifiers that end in a file name with a dot in it.
  `Path.suffix_resolve`: for these the suffix is that of the resolved path.
* **`Request.IsDispatched`** — the request got a load, and `isDispatched_iff` says when.
* **`same_path_same_load`** — the law, and `dots_behind_a_name_are_refused` what is missing for all
  spellings.
-/

namespace ScriptLink

namespace Path

/-- The last segment is no step in the directories and has a dot in it. -/
def HasExtension (specifier : String) : Prop :=
  '.' ∈ lastSegment specifier.toList ∧ ¬ IsDots (lastSegment specifier.toList)

instance (specifier : String) : Decidable (HasExtension specifier) :=
  inferInstanceAs (Decidable (_ ∧ _))

/-- A suffix that begins behind a dot of the last segment has no slash. -/
theorem not_mem_suffix {path : String} (h : '.' ∈ lastSegment path.toList) :
    '/' ∉ (suffix path).toList := by
  obtain ⟨hfree, hcases⟩ := lastSegment_cases path.toList
  -- from behind, the dot comes before the slash
  have htaken : path.toList.reverse.takeWhile (· != '.') <+: (lastSegment path.toList).reverse := by
    have hprefix : (lastSegment path.toList).reverse <+: path.toList.reverse := by
      rcases hcases with heq | ⟨first, heq⟩
      · exact ⟨[], by rw [← heq, List.append_nil]⟩
      · refine ⟨'/' :: first.reverse, ?_⟩
        calc (lastSegment path.toList).reverse ++ '/' :: first.reverse
            = (first ++ '/' :: lastSegment path.toList).reverse := by simp
          _ = path.toList.reverse := by rw [← heq]
    obtain ⟨behind, hbehind⟩ := hprefix
    rw [← hbehind, List.takeWhile_append, if_neg]
    · exact List.takeWhile_prefix _
    · intro hlength
      have hall := List.all_takeWhile (p := (· != '.')) (l := (lastSegment path.toList).reverse)
      rw [(List.takeWhile_prefix _).eq_of_length hlength, List.all_eq_true] at hall
      exact absurd (hall '.' (List.mem_reverse.mpr h)) (by decide)
  unfold suffix
  rw [String.toList_ofList, List.mem_reverse]
  intro hslash
  exact hfree (List.mem_reverse.mp (htaken.subset hslash))

/-- **The suffix of a file name is that of the path it is resolved to.** -/
theorem suffix_resolve {referrer specifier : String} (h : HasExtension specifier) :
    suffix (resolve referrer specifier) = suffix specifier := by
  obtain ⟨hdot, hname⟩ := h
  have hlast : lastSegment (resolve referrer specifier).toList = lastSegment specifier.toList :=
    lastSegment_resolve (fun heq => hname (.inl heq)) (fun heq => hname (.inr heq))
  calc suffix (resolve referrer specifier)
      = suffix (name (resolve referrer specifier)) :=
        (suffix_name (not_mem_suffix (by rw [hlast]; exact hdot))).symm
    _ = suffix (name specifier) := by rw [name, hlast, name]
    _ = suffix specifier := suffix_name (not_mem_suffix hdot)

end Path

/-- The request got the load of some path. -/
def Request.IsDispatched (request : Request) : Prop := ∃ path, request = .load path

namespace Session

variable {session later : Session} {specifier referrer : String}

/-- A request is dispatched exactly if there is a loader for the specifier as written, and then to
the load of the resolved path, which is recorded. -/
theorem isDispatched_iff :
    (session.request specifier referrer).2.2.IsDispatched ↔
      (session.loaders.find? specifier).isSome = true := by
  rcases request_cases session specifier referrer with ⟨hnone, hrefused⟩ | ⟨hsome, hload, -⟩
  · rw [hnone, hrefused]
    exact ⟨fun ⟨_, hload⟩ => absurd hload (by simp), fun h => absurd h (by simp)⟩
  · exact ⟨fun _ => hsome, fun _ => ⟨_, hload⟩⟩

theorem request_of_isDispatched (h : (session.request specifier referrer).2.2.IsDispatched) :
    (session.request specifier referrer).2.2 = .load (Path.resolve referrer specifier) ∧
      ∃ record, (session.request specifier referrer).1.find? (Path.resolve referrer specifier) =
        some record := by
  rcases request_cases session specifier referrer with ⟨-, hrefused⟩ | ⟨-, hload, hfound⟩
  · obtain ⟨_, hload⟩ := h
    rw [hrefused] at hload
    exact absurd hload (by simp)
  · exact ⟨hload, Option.isSome_iff_exists.mp hfound⟩

/-- **One path, one load.** Take two requests that resolve to one path, made while the same loaders
are registered, in any two states of sessions. If both are dispatched, they get the load of that
path, and if the second state comes after the first request, it is the same load that is found: its
record has kept its loader, and it has not begun again. If both specifiers end in a file name with
an extension, one of them is dispatched exactly if the other is. -/
theorem same_path_same_load {first second from₁ from₂ : String}
    (hpath : Path.resolve from₁ first = Path.resolve from₂ second)
    (hloaders : later.loaders = session.loaders) :
    let one := session.request first from₁
    let two := later.request second from₂
    (one.2.2.IsDispatched → two.2.2.IsDispatched → one.2.2 = two.2.2 ∧
      (Steps (fun _ => True) one.1 later →
        ∃ record kept, one.1.find? (Path.resolve from₁ first) = some record ∧
          two.1.find? (Path.resolve from₁ first) = some kept ∧ kept.loader = record.loader ∧
          (record.task ≠ .start → kept.task ≠ .start))) ∧
    (Path.HasExtension first → Path.HasExtension second →
      (one.2.2.IsDispatched ↔ two.2.2.IsDispatched)) := by
  intro one two
  constructor
  · intro hone htwo
    obtain ⟨hload₁, record, hrecord⟩ := request_of_isDispatched hone
    obtain ⟨hload₂, -⟩ := request_of_isDispatched htwo
    refine ⟨by rw [hload₁, hload₂, hpath], fun hsteps => ?_⟩
    obtain ⟨kept, hkept, hloader, hstage⟩ := hsteps.keeps hrecord
    refine ⟨record, kept, hrecord, (grown_request later second from₂).found hkept, hloader, ?_⟩
    intro hbegun hstart
    rw [hstart] at hstage
    exact hbegun (Task.stage_eq_zero_iff.mp (Nat.le_zero.mp hstage))
  · intro hext₁ hext₂
    have hsuffix : Path.suffix first = Path.suffix second := by
      rw [← Path.suffix_resolve hext₁, ← Path.suffix_resolve hext₂, hpath]
    have hfind : later.loaders.find? second = session.loaders.find? first := by
      show later.loaders.lookup (Path.suffix second) = session.loaders.lookup (Path.suffix first)
      rw [hloaders, hsuffix]
    rw [isDispatched_iff, isDispatched_iff, hfind]

/-- Two ways to the module at the top, the second while the first request is on its way. -/
theorem two_ways_to_one_module :
    let session := start Config.default ⟨[], [], Host.exportOrigin, []⟩ fun _ => false
    let one := session.request "main.js" "."
    let two := one.1.request "../main.js" "lib/a.js"
    Path.resolve "." "main.js" = Path.resolve "lib/a.js" "../main.js" ∧
      one.1.loaders = session.loaders ∧ one.2.2.IsDispatched ∧ two.2.2.IsDispatched ∧
      one.2.2 = two.2.2 := by
  intro session one two
  have hpath : Path.resolve "." "main.js" = Path.resolve "lib/a.js" "../main.js" := by
    decide +kernel
  have hloaders : one.1.loaders = session.loaders := (grown_request session _ _).loaders
  have hlaw := same_path_same_load hpath hloaders
  have hone : one.2.2.IsDispatched := isDispatched_iff.mpr (by decide +kernel)
  have htwo : two.2.2.IsDispatched :=
    (hlaw.2 (by decide +kernel) (by decide +kernel)).mp hone
  exact ⟨hpath, hloaders, hone, htwo, (hlaw.1 hone htwo).1⟩

/-- **A step behind the file name is refused.** Both specifiers name `main.js`, and the first is
dispatched; the second is not, since what it has behind its last dot is nothing. So the two handles
do not stand for one load. -/
theorem dots_behind_a_name_are_refused :
    let session := start Config.default ⟨[], [], Host.exportOrigin, []⟩ fun _ => false
    let one := session.request "main.js" "."
    let two := one.1.request "main.js/." "."
    let last := session.performAll
      [.act (.request "main.js" (some ".")), .act (.request "main.js/." (some "."))]
    Path.resolve "." "main.js" = Path.resolve "." "main.js/." ∧
      one.1.loaders = session.loaders ∧ one.2.2.IsDispatched ∧ ¬ two.2.2.IsDispatched ∧
      last.sameLoad 0 1 = some false := by
  intro session one two last
  refine ⟨by decide +kernel, (grown_request session _ _).loaders,
    isDispatched_iff.mpr (by decide +kernel), fun htwo => ?_, by decide +kernel⟩
  exact absurd (isDispatched_iff.mp htwo) (by decide +kernel)

end Session

end ScriptLink
