import ScriptLink.ReservedWord

/-!
# What a stream keeps of its tokens

A stream is built from marks, and later passes change it token by token. Most of what is asked of a
token can be said by a view, a function of the token alone, and then the question is only what the
view reads.

* **`link_map`** — a view that does not look at the links is known from the marks.
* **`map_classify`** — a view that does not look at the kind is the same after the classification.
* **`spans`**, **`sourceText`**, **`render`** — three such views.
-/

namespace ScriptLink.TokenStream

variable {α : Type}

/-- The spans of all tokens, in order. -/
def spans (stream : TokenStream) : List Span := stream.tokens.toList.map (·.span)

theorem lt_size_of_kind? {stream : TokenStream} {id : Nat} {kind : TokenKind}
    (h : stream.kind? id = some kind) : id < stream.size := by
  obtain ⟨token, htoken, -⟩ := Option.map_eq_some_iff.mp h
  exact (Array.getElem?_eq_some_iff.mp htoken).1

/-- Tokens with the same links have the same neighbours, also where a token is missing. -/
theorem bind_eq_of_map_eq {first second : Option Token} {view : Token → Option α}
    (h : first.map view = second.map view) : first.bind view = second.bind view := by
  cases first <;> cases second
  · rfl
  · exact absurd h (by simp)
  · exact absurd h (by simp)
  · exact Option.some.inj h

/-! ## Building -/

/-- Linking goes along the marks, so a view that leaves the links out can be taken of each mark. -/
theorem link_map {source : String} {view : Token → α} {ofMark : Mark → α}
    (hview : ∀ mark prev next, view ⟨mark.kind, mark.span,
      slice? source mark.span.start mark.span.stop, prev, next, none⟩ = ofMark mark)
    (index : Nat) (last : Option Nat) (marks : List Mark) :
    (link source index last marks).1.map view = marks.map ofMark := by
  induction marks generalizing index last with
  | nil => rfl
  | cons mark rest ih =>
    show view ⟨mark.kind, mark.span, _, last, _, none⟩ :: List.map view (link source _ _ rest).1 = _
    rw [hview, ih, List.map_cons]

theorem length_link (source : String) (index : Nat) (last : Option Nat) (marks : List Mark) :
    (link source index last marks).1.length = marks.length := by
  induction marks generalizing index last with
  | nil => rfl
  | cons mark rest ih => simp only [link, List.length_cons, ih]

theorem size_ofMarks (source : String) (marks : List Mark) :
    (ofMarks source marks).size = marks.length := by
  show (link source 0 none marks).1.toArray.size = _
  rw [List.size_toArray, length_link]

theorem spans_ofMarks (source : String) (marks : List Mark) :
    (ofMarks source marks).spans = marks.map Mark.span :=
  link_map (fun _ _ _ => rfl) 0 none marks

/-! ## Changing kinds -/

section

variable {view : Token → α}
  (hview : ∀ (token : Token) (kind : TokenKind), view { token with kind := kind } = view token)

include hview

theorem map_setKind (stream : TokenStream) (id : Nat) (kind : TokenKind) :
    (stream.setKind id kind).tokens.toList.map view = stream.tokens.toList.map view := by
  unfold setKind
  refine List.ext_getElem? fun index => ?_
  rw [List.getElem?_map, List.getElem?_map, Array.getElem?_toList, Array.getElem?_toList,
    Array.getElem?_modify]
  split
  · rw [Option.map_map]
    exact Option.map_congr fun token _ => hview token kind
  · rfl

theorem map_classifyAt (stream : TokenStream) (id : Nat) :
    (stream.classifyAt id).tokens.toList.map view = stream.tokens.toList.map view := by
  unfold classifyAt
  split
  · exact map_setKind hview stream id .keyword
  · rfl

/-- **The classification changes kinds only.** -/
theorem map_classify (stream : TokenStream) :
    stream.classify.tokens.toList.map view = stream.tokens.toList.map view := by
  unfold classify
  generalize List.range stream.size = ids
  induction ids generalizing stream with
  | nil => rfl
  | cons id rest ih => rw [List.foldl_cons, ih, map_classifyAt hview]

end

theorem size_classifyAt (stream : TokenStream) (id : Nat) :
    (stream.classifyAt id).size = stream.size := by
  unfold classifyAt
  split
  · exact Array.size_modify
  · rfl

theorem size_classify (stream : TokenStream) : stream.classify.size = stream.size := by
  unfold classify
  generalize List.range stream.size = ids
  induction ids generalizing stream with
  | nil => rfl
  | cons id rest ih => rw [List.foldl_cons, ih, size_classifyAt]

theorem spans_classify (stream : TokenStream) : stream.classify.spans = stream.spans :=
  map_classify (fun _ _ => rfl) stream

theorem sourceText_classify (stream : TokenStream) :
    stream.classify.sourceText = stream.sourceText :=
  congrArg String.join (map_classify (fun _ _ => rfl) stream)

theorem render_classify (stream : TokenStream) : stream.classify.render = stream.render :=
  congrArg String.join (map_classify (fun _ _ => rfl) stream)

end ScriptLink.TokenStream
