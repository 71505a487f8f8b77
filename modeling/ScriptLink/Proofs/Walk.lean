import Mathlib.Order.Bounds.Basic
import ScriptLink.Proofs.Neighbour

/-!
# Walks along the links

The links of a stream in both directions, and where following them leads.

* **`TokenStream.IsPrev`** — the nearest token before another. In a stream that is `BackLinked`, the
  link backwards leads there; a stream built from marks is (`backLinked_ofMarks`).
* **`TokenStream.isNext_iff_isPrev`** — between tokens that are no trivia, the nearest behind and
  the nearest before are inverse to each other.
* **`TokenStream.Walk`** — the tokens that the links forwards lead through. `exists_walk`: every
  walk ends, after all tokens behind its start that are no trivia, each in its turn.
-/

namespace ScriptLink

namespace Mark

/-- The mark `id` is there, and it is neither white space nor a comment. -/
def IsMeaningfulAt (marks : List Mark) (id : Nat) : Prop :=
  ∃ mark, marks[id]? = some mark ∧
    mark.kind ∉ [TokenKind.whitespace, TokenKind.comment, TokenKind.docComment]

end Mark

namespace TokenStream

variable {stream : TokenStream} {id found k : Nat} {marks : List Mark}

theorem isMeaningfulAt_iff (source : String) (marks : List Mark) (id : Nat) :
    Mark.IsMeaningfulAt marks id ↔ (ofMarks source marks).IsMeaningful id := by
  have hkind (kind : TokenKind) :
      kind ∉ [TokenKind.whitespace, TokenKind.comment, TokenKind.docComment] ↔
        kind.isTrivia = false := by
    cases kind <;> simp [TokenKind.isTrivia]
  rw [isMeaningful_ofMarks]
  simp only [Mark.IsMeaningfulAt, hkind]

/-! ## The nearest token before another -/

/-- `found` is the nearest token before `id` that is no trivia. -/
structure IsPrev (stream : TokenStream) (id found : Nat) : Prop where
  lt : found < id
  meaningful : stream.IsMeaningful found
  nearest : ∀ k, found < k → k < id → ¬ stream.IsMeaningful k

/-- The links backwards lead to the nearest tokens that are no trivia. -/
def BackLinked (stream : TokenStream) : Prop :=
  ∀ id found, id < stream.size → (stream.prev id = some found ↔ stream.IsPrev id found)

theorem IsPrev.congr {other : TokenStream}
    (hmeans : ∀ k, stream.IsMeaningful k ↔ other.IsMeaningful k) (h : stream.IsPrev id found) :
    other.IsPrev id found :=
  ⟨h.lt, (hmeans found).mp h.meaningful,
    fun k hk hlt hk' => h.nearest k hk hlt ((hmeans k).mpr hk')⟩

theorem BackLinked.congr {other : TokenStream} (h : stream.BackLinked)
    (hsize : other.size = stream.size) (hprev : other.prev = stream.prev)
    (hmeans : ∀ k, other.IsMeaningful k ↔ stream.IsMeaningful k) : other.BackLinked := by
  intro id found hid
  rw [hsize] at hid
  rw [hprev, h id found hid]
  exact ⟨IsPrev.congr fun k => (hmeans k).symm, IsPrev.congr hmeans⟩

theorem isPrev_succ_of_meaningful (h : stream.IsMeaningful id) :
    stream.IsPrev (id + 1) found ↔ found = id := by
  constructor
  · rintro ⟨hlt, -, hnearest⟩
    rcases Nat.lt_succ_iff_lt_or_eq.mp hlt with hbefore | rfl
    · exact absurd h (hnearest id hbefore (Nat.lt_succ_self id))
    · rfl
  · rintro rfl
    exact ⟨Nat.lt_succ_self found, h, fun k hk hlt => absurd hlt (by omega)⟩

theorem isPrev_succ_of_trivia (h : ¬ stream.IsMeaningful id) :
    stream.IsPrev (id + 1) found ↔ stream.IsPrev id found := by
  constructor
  · rintro ⟨hlt, hfound, hnearest⟩
    rcases Nat.lt_succ_iff_lt_or_eq.mp hlt with hbefore | rfl
    · exact ⟨hbefore, hfound, fun k hk hlt => hnearest k hk (Nat.lt_succ_of_lt hlt)⟩
    · exact absurd hfound h
  · rintro ⟨hlt, hfound, hnearest⟩
    refine ⟨Nat.lt_succ_of_lt hlt, hfound, fun k hk hlt => ?_⟩
    rcases Nat.lt_succ_iff_lt_or_eq.mp hlt with hbefore | rfl
    · exact hnearest k hk hbefore
    · exact h

/-- Where anything is before a token, something is nearest to it. -/
theorem exists_isPrev (hlt : k < id) (hmeans : stream.IsMeaningful k) :
    ∃ found, stream.IsPrev id found := by
  induction id with
  | zero => exact absurd hlt (Nat.not_lt_zero k)
  | succ id ih =>
    by_cases hlast : stream.IsMeaningful id
    · exact ⟨id, (isPrev_succ_of_meaningful hlast).mpr rfl⟩
    · rcases Nat.lt_succ_iff_lt_or_eq.mp hlt with hbefore | rfl
      · obtain ⟨found, hfound⟩ := ih hbefore
        exact ⟨found, (isPrev_succ_of_trivia hlast).mpr hfound⟩
      · exact absurd hmeans hlast

theorem prev_eq_none_iff (hlinked : stream.BackLinked) (hid : id < stream.size) :
    stream.prev id = none ↔ ∀ k < id, ¬ stream.IsMeaningful k := by
  constructor
  · intro hnone k hlt hmeans
    obtain ⟨found, hfound⟩ := exists_isPrev hlt hmeans
    rw [(hlinked id found hid).mpr hfound] at hnone
    exact absurd hnone (by simp)
  · intro hall
    refine Option.eq_none_iff_forall_ne_some.mpr fun found hprev => ?_
    have hfound := (hlinked id found hid).mp hprev
    exact hall found hfound.lt hfound.meaningful

/-- The mark that is handed down the list is the nearest one before. -/
theorem last?_take_eq_some_iff (source : String) (hid : id ≤ marks.length) :
    Mark.last? 0 none (marks.take id) = some found ↔ (ofMarks source marks).IsPrev id found := by
  induction id with
  | zero => exact iff_of_false (by simp [Mark.last?]) fun h => absurd h.lt (Nat.not_lt_zero found)
  | succ id ih =>
    have hmark : marks[id]? = some marks[id] := List.getElem?_eq_getElem hid
    rw [List.take_succ_eq_append_getElem hid, Mark.last?_concat, List.length_take,
      Nat.min_eq_left (Nat.le_of_lt hid), Nat.zero_add]
    cases htrivia : marks[id].kind.isTrivia with
    | false =>
      have hmeans : (ofMarks source marks).IsMeaningful id :=
        isMeaningful_ofMarks.mpr ⟨_, hmark, htrivia⟩
      rw [isPrev_succ_of_meaningful hmeans, if_neg (by simp), Option.some.injEq, eq_comm]
    | true =>
      -- trivia hands on the mark that it was handed
      have hmeans : ¬ (ofMarks source marks).IsMeaningful id := by
        intro hmeans
        obtain ⟨mark, hmark', hfalse⟩ := isMeaningful_ofMarks.mp hmeans
        obtain rfl := Option.some.inj (hmark.symm.trans hmark')
        rw [htrivia] at hfalse
        exact absurd hfalse (by decide)
      rw [isPrev_succ_of_trivia hmeans, ← ih (Nat.le_of_lt hid), if_pos rfl]

theorem backLinked_ofMarks (source : String) (marks : List Mark) :
    (ofMarks source marks).BackLinked := by
  intro id found hid
  rw [size_ofMarks] at hid
  rw [prev_ofMarks source hid, last?_take_eq_some_iff source (Nat.le_of_lt hid)]

/-- Between tokens that are no trivia, the nearest behind and the nearest before are inverse. -/
theorem isNext_iff_isPrev {first second : Nat} (hfirst : stream.IsMeaningful first)
    (hsecond : stream.IsMeaningful second) :
    stream.IsNext first second ↔ stream.IsPrev second first :=
  ⟨fun h => ⟨h.lt, hfirst, h.nearest⟩, fun h => ⟨h.lt, hsecond, h.nearest⟩⟩

/-! ## As extreme places -/

theorem isNext_iff_isLeast :
    stream.IsNext id found ↔ IsLeast {k | id < k ∧ stream.IsMeaningful k} found := by
  constructor
  · rintro ⟨hlt, hfound, hnearest⟩
    refine ⟨⟨hlt, hfound⟩, fun k ⟨hk, hmeans⟩ => ?_⟩
    exact Nat.le_of_not_lt fun hbefore => hnearest k hk hbefore hmeans
  · rintro ⟨⟨hlt, hfound⟩, hleast⟩
    exact ⟨hlt, hfound, fun k hk hbefore hmeans => absurd (hleast ⟨hk, hmeans⟩) (by omega)⟩

theorem isPrev_iff_isGreatest :
    stream.IsPrev id found ↔ IsGreatest {k | k < id ∧ stream.IsMeaningful k} found := by
  constructor
  · rintro ⟨hlt, hfound, hnearest⟩
    refine ⟨⟨hlt, hfound⟩, fun k ⟨hk, hmeans⟩ => ?_⟩
    exact Nat.le_of_not_lt fun hbehind => hnearest k hbehind hk hmeans
  · rintro ⟨⟨hlt, hfound⟩, hgreatest⟩
    exact ⟨hlt, hfound, fun k hk hbefore hmeans => absurd (hgreatest ⟨hbefore, hmeans⟩) (by omega)⟩

/-- Where anything is behind a token, something is nearest to it. -/
theorem exists_isNext (hlt : id < k) (hmeans : stream.IsMeaningful k) :
    ∃ found, stream.IsNext id found := by
  induction hleft : k - id using Nat.strongRecOn generalizing k with
  | ind left ih =>
    -- whatever stands between the two is nearer than `k`
    by_cases hnearer : ∃ nearer, id < nearer ∧ nearer < k ∧ stream.IsMeaningful nearer
    · obtain ⟨nearer, hbehind, hbefore, hmeans'⟩ := hnearer
      exact ih (nearer - id) (by omega) hbehind hmeans' rfl
    · exact ⟨k, hlt, hmeans, fun other hbehind hbefore hmeans' =>
        hnearer ⟨other, hbehind, hbefore, hmeans'⟩⟩

theorem next_eq_none_iff (hlinked : stream.Linked) (hid : id < stream.size) :
    stream.next id = none ↔ ∀ k > id, ¬ stream.IsMeaningful k := by
  constructor
  · intro hnone k hlt hmeans
    obtain ⟨found, hfound⟩ := exists_isNext hlt hmeans
    rw [(hlinked id found hid).mpr hfound] at hnone
    exact absurd hnone (by simp)
  · intro hall
    refine Option.eq_none_iff_forall_ne_some.mpr fun found hnext => ?_
    have hfound := (hlinked id found hid).mp hnext
    exact hall found hfound.lt hfound.meaningful

/-! ## Walks -/

/-- The tokens that the links forwards lead through from `id` on, to the end. -/
inductive Walk (stream : TokenStream) : Nat → List Nat → Prop where
  | stop {id : Nat} (h : stream.next id = none) : Walk stream id []
  | step {id found : Nat} {rest : List Nat} (h : stream.next id = some found)
      (later : Walk stream found rest) : Walk stream id (found :: rest)

/-- **Every walk ends**, and it visits what is behind its start and is no trivia, in order. -/
theorem exists_walk (hlinked : stream.Linked) (hid : id < stream.size) :
    ∃ ids, stream.Walk id ids ∧ ids.Pairwise (· < ·) ∧
      ∀ k, k ∈ ids ↔ id < k ∧ stream.IsMeaningful k := by
  -- every link leads closer to the end of the stream
  induction hleft : stream.size - id using Nat.strongRecOn generalizing id with
  | ind left ih =>
    cases hnext : stream.next id with
    | none =>
      have hnone := (next_eq_none_iff hlinked hid).mp hnext
      exact ⟨[], .stop hnext, .nil, fun k =>
        iff_of_false List.not_mem_nil fun h => hnone k h.1 h.2⟩
    | some found =>
      have hfound := (hlinked id found hid).mp hnext
      have hlt := hfound.lt
      have hsize := hfound.meaningful.lt_size
      obtain ⟨rest, hwalk, hsorted, hmem⟩ := ih (stream.size - found) (by omega) hsize rfl
      refine ⟨found :: rest, .step hnext hwalk,
        List.pairwise_cons.mpr ⟨fun k hk => ((hmem k).mp hk).1, hsorted⟩, fun k => ?_⟩
      rw [List.mem_cons, hmem]
      constructor
      · rintro (rfl | ⟨hk, hmeans⟩)
        · exact ⟨hlt, hfound.meaningful⟩
        · exact ⟨Nat.lt_trans hlt hk, hmeans⟩
      · rintro ⟨hk, hmeans⟩
        -- nothing that is no trivia stands between the start and the first stop
        rcases Nat.lt_trichotomy k found with hbetween | rfl | hbehind
        · exact absurd hmeans (hfound.nearest k hk hbetween)
        · exact .inl rfl
        · exact .inr ⟨hbehind, hmeans⟩

/-! ## The law -/

/-- **The links of a new stream are exact**, for trivia as well as for the other tokens: they lead
to the nearest tokens that are neither white space nor comments, on both sides; a walk forwards
visits all of these, each in its turn, and ends; and between them the two links are inverse. -/
theorem neighbour_links_are_exact (source : String) (marks : List Mark) :
    let stream := ofMarks source marks
    (∀ id < marks.length,
      (∀ found, stream.prev id = some found ↔
        IsGreatest {k | k < id ∧ Mark.IsMeaningfulAt marks k} found) ∧
      (stream.prev id = none ↔ ∀ k < id, ¬ Mark.IsMeaningfulAt marks k) ∧
      (∀ found, stream.next id = some found ↔
        IsLeast {k | id < k ∧ Mark.IsMeaningfulAt marks k} found) ∧
      (stream.next id = none ↔ ∀ k > id, ¬ Mark.IsMeaningfulAt marks k) ∧
      ∃ ids, stream.Walk id ids ∧ ids.Pairwise (· < ·) ∧
        ∀ k, k ∈ ids ↔ id < k ∧ Mark.IsMeaningfulAt marks k) ∧
    ∀ first second, Mark.IsMeaningfulAt marks first → Mark.IsMeaningfulAt marks second →
      (stream.next first = some second ↔ stream.prev second = some first) := by
  intro stream
  have hlinked : stream.Linked := linked_ofMarks source marks
  have hback : stream.BackLinked := backLinked_ofMarks source marks
  have hsize : stream.size = marks.length := size_ofMarks source marks
  have hmeans (k : Nat) : Mark.IsMeaningfulAt marks k ↔ stream.IsMeaningful k :=
    isMeaningfulAt_iff source marks k
  simp only [hmeans, ← isPrev_iff_isGreatest, ← isNext_iff_isLeast]
  refine ⟨fun id hid => ?_, fun first second hfirst hsecond => ?_⟩
  · rw [← hsize] at hid
    exact ⟨fun found => hback id found hid, prev_eq_none_iff hback hid,
      fun found => hlinked id found hid, next_eq_none_iff hlinked hid, exists_walk hlinked hid⟩
  · rw [hlinked first second hfirst.lt_size, hback second first hsecond.lt_size,
      isNext_iff_isPrev hfirst hsecond]

/-- A blank before a name, and a blank and a comment between it and the next one. -/
theorem links_around_a_comment :
    let marks : List Mark := [⟨.whitespace, 0, 1⟩, ⟨.identifier, 1, 2⟩, ⟨.whitespace, 2, 3⟩,
      ⟨.comment, 3, 8⟩, ⟨.identifier, 8, 9⟩]
    let stream := ofMarks " a /*c*/b" marks
    3 < marks.length ∧ stream.prev 3 = some 1 ∧
      IsGreatest {k | k < 3 ∧ Mark.IsMeaningfulAt marks k} 1 ∧
      (∀ k < 1, ¬ Mark.IsMeaningfulAt marks k) ∧
      (stream.next 1 = some 4 ↔ stream.prev 4 = some 1) := by
  intro marks stream
  have hprev : stream.prev 3 = some 1 := rfl
  have hnone : stream.prev 1 = none := rfl
  obtain ⟨hlinks, hinverse⟩ := neighbour_links_are_exact " a /*c*/b" marks
  obtain ⟨hgreatest, -⟩ := hlinks 3 (by decide)
  obtain ⟨-, hbefore, -⟩ := hlinks 1 (by decide)
  refine ⟨by decide, hprev, (hgreatest 1).mp hprev, hbefore.mp hnone, ?_⟩
  exact hinverse 1 4 ⟨_, rfl, by decide⟩ ⟨_, rfl, by decide⟩

end TokenStream

end ScriptLink
