import ScriptLink.Proofs.ImportOrder
import ScriptLink.Proofs.Session.Turn

/-!
# How much a text can ask for

The bound on polling is computed from the lengths of the texts, so it has to be known that a
text asks for no more than its length allows. Every request of a module goes back to a marker,
which is a find in the text, or to an import statement, which has a token of its own; and finds
and tokens are no more than characters.

* **`length_occurrences_le`** — no more finds than characters.
* **`length_pieces_le`**, **`length_imports_le`** — no more tokens than characters, and no more
  imports than tokens.
* **`length_requests_le`**, **`length_styles_le`** — the two together, for every built-in loader.
-/

namespace ScriptLink

open Markup

/-! ## Finds -/

theorem length_occurrencesFrom_le {α : Type} (pattern : Pattern α) (position skip : Nat)
    (text : List Char) : (occurrencesFrom pattern position skip text).length ≤ text.length := by
  fun_induction occurrencesFrom pattern position skip text with
  | case1 => exact Nat.le_refl _
  | case2 position c rest skip ih => exact Nat.le_succ_of_le ih
  | case3 position c rest hnone ih => exact Nat.le_succ_of_le ih
  | case4 position c rest value tail hsome length ih => exact Nat.succ_le_succ ih

/-- **No more finds than characters.** -/
theorem length_occurrences_le {α : Type} (pattern : Pattern α) (text : List Char) :
    (occurrences pattern text).length ≤ text.length :=
  length_occurrencesFrom_le pattern 0 0 text

/-- Every find is one of the pattern, at some place of the text. -/
theorem mem_occurrencesFrom {α : Type} {pattern : Pattern α} {position skip : Nat}
    {text : List Char} {found : Occurrence α}
    (h : found ∈ occurrencesFrom pattern position skip text) :
    ∃ part tail, part <:+ text ∧ pattern part = some (found.value, tail) := by
  fun_induction occurrencesFrom pattern position skip text with
  | case1 => exact absurd h List.not_mem_nil
  | case2 position c rest skip ih =>
    obtain ⟨part, tail, hpart, hfound⟩ := ih h
    exact ⟨part, tail, hpart.trans (List.suffix_cons c rest), hfound⟩
  | case3 position c rest hnone ih =>
    obtain ⟨part, tail, hpart, hfound⟩ := ih h
    exact ⟨part, tail, hpart.trans (List.suffix_cons c rest), hfound⟩
  | case4 position c rest value tail hsome length ih =>
    rcases List.mem_cons.mp h with rfl | hlater
    · exact ⟨c :: rest, tail, List.suffix_refl _, hsome⟩
    · obtain ⟨part, tail, hpart, hfound⟩ := ih hlater
      exact ⟨part, tail, hpart.trans (List.suffix_cons c rest), hfound⟩

/-! ## The text of an element is part of the markup -/

theorem length_word?_le {fold : Char → Char} {word text rest : List Char}
    (h : word? fold word text = some rest) : rest.length ≤ text.length := by
  fun_induction word? fold word text with
  | case1 text =>
    obtain rfl := Option.some.inj h
    exact Nat.le_refl _
  | case2 => exact absurd h (by simp)
  | case3 word c text ih => exact Nat.le_succ_of_le (ih h)
  | case4 => exact absurd h (by simp)

theorem length_tagRest?_le {name : String} {text rest : List Char}
    (h : tagRest? name text = some rest) : rest.length ≤ text.length := by
  unfold tagRest? at h
  obtain ⟨named, hname, h⟩ := Option.bind_eq_some_iff.mp h
  split at h
  · have hrest := length_word?_le h
    have hdropped := (List.dropWhile_suffix (l := named) (· != '>')).length_le
    exact Nat.le_trans hrest (Nat.le_trans hdropped (length_word?_le hname))
  · exact absurd h (by simp)

theorem length_untilClose?_le {name : String} {text value rest : List Char}
    (h : untilClose? name text = some (value, rest)) : value.length ≤ text.length := by
  induction text generalizing value rest with
  | nil => exact absurd h (by simp [untilClose?])
  | cons c later ih =>
    unfold untilClose? at h
    split at h
    · obtain ⟨rfl, -⟩ := Prod.mk.inj (Option.some.inj h)
      exact Nat.zero_le _
    · obtain ⟨⟨inner, tail⟩, hinner, heq⟩ := Option.map_eq_some_iff.mp h
      obtain ⟨rfl, -⟩ := Prod.mk.inj heq
      exact Nat.succ_le_succ (ih hinner)

theorem length_element?_le {name : String} {text value rest : List Char}
    (h : element? name text = some (value, rest)) : value.length ≤ text.length := by
  obtain ⟨opened, hopen, h⟩ := Option.bind_eq_some_iff.mp h
  obtain ⟨inner, hinner, h⟩ := Option.bind_eq_some_iff.mp h
  exact Nat.le_trans (length_untilClose?_le h)
    (Nat.le_trans (length_tagRest?_le hinner) (length_word?_le hopen))

/-- The script of a component is no longer than its markup. -/
theorem length_script_le (markup : String) :
    (Component.ofMarkup markup).script.toList.length ≤ markup.toList.length := by
  unfold Component.ofMarkup
  dsimp only
  cases hfound : occurrences (element? "script") markup.toList with
  | nil => exact Nat.zero_le _
  | cons first rest =>
    obtain ⟨part, tail, hpart, hfirst⟩ :=
      mem_occurrencesFrom (hfound ▸ List.mem_cons_self : first ∈ occurrences _ _)
    rw [List.map_cons, List.headD_cons, String.toList_ofList]
    exact Nat.le_trans (length_element?_le hfirst) hpart.length_le

/-! ## Tokens -/

theorem length_scan_le {context : Context} {position : Nat} {text : List Char}
    {found : List Piece} (h : context.scan position text = .ok found) :
    found.length ≤ text.length := by
  induction h using Context.scan_induction with
  | stop position => exact Nat.le_refl _
  | step hstep hlater ih =>
    rw [List.length_drop] at ih
    simp only [List.length_cons]
    omega

/-- **No more tokens than characters.** -/
theorem length_pieces_le {source : String} {found : List Piece} (h : pieces source = .ok found) :
    found.length ≤ source.toList.length :=
  length_scan_le h

theorem length_locate (start : Nat) (found : List Piece) :
    (Piece.locate start found).length = found.length := by
  induction found generalizing start with
  | nil => rfl
  | cons piece rest ih => simp only [Piece.locate, List.length_cons, ih]

theorem size_tokenize_le {source : String} {stream : TokenStream}
    (h : tokenize source = .ok stream) : stream.size ≤ source.toList.length := by
  obtain ⟨found, hpieces, rfl⟩ := pieces_of_tokenize h
  show (TokenStream.link source 0 none (Piece.locate 0 found)).1.toArray.size ≤ _
  rw [List.size_toArray, TokenStream.length_link, length_locate]
  exact length_pieces_le hpieces

/-! ## Requests -/

namespace ImportMap

theorem length_add_le (path : String) (bindings : List Binding) (map : ImportMap) :
    (map.add path bindings).length ≤ map.length + 1 := by
  fun_induction add path bindings map with
  | case1 => exact Nat.le_refl _
  | case2 before rest => exact Nat.le_succ _
  | case3 known before rest hne ih => exact Nat.succ_le_succ ih

/-- Adding entries one by one adds no more than there are. -/
theorem length_foldl_add_le {α : Type} (path : α → String) (bindings : α → List Binding)
    (entries : List α) (map : ImportMap) :
    (entries.foldl (fun map entry => map.add (path entry) (bindings entry)) map).length ≤
      map.length + entries.length := by
  induction entries generalizing map with
  | nil => exact Nat.le_refl _
  | cons entry rest ih =>
    have hfirst := length_add_le (path entry) (bindings entry) map
    have hrest := ih (map.add (path entry) (bindings entry))
    rw [List.foldl_cons, List.length_cons]
    omega

end ImportMap

theorem length_requestsOf_le (markers : List Marker) (imports : ImportMap) :
    (Linking.requestsOf markers imports).paths.length ≤ markers.length + imports.length := by
  have hmarked := ImportMap.length_foldl_add_le Marker.path
    (fun marker => marker.name.toList.map .whole) markers []
  have hall := ImportMap.length_foldl_add_le Prod.fst Prod.snd imports
    (markers.foldl (fun map marker =>
      ImportMap.add marker.path (marker.name.toList.map .whole) map) [])
  rw [List.length_nil] at hmarked
  show (List.map Prod.fst _).length ≤ _
  rw [List.length_map]
  exact Nat.le_trans hall (by omega)

/-- **No more imports than characters.** -/
theorem length_imports_le {exportsName source : String} {script : Script}
    (h : transform exportsName source = .ok script) :
    script.imports.length ≤ source.toList.length := by
  obtain ⟨stream, statements, hstream, hstatements, himports⟩ := imports_of_transform h
  rw [himports]
  calc (ImportMap.collect (statements.map (·.2.entry))).length
      ≤ (statements.map (·.2.entry)).length := by
        have hlength :=
          ImportMap.length_foldl_add_le Prod.fst Prod.snd (statements.map (·.2.entry)) []
        rwa [List.length_nil, Nat.zero_add] at hlength
    _ = statements.length := List.length_map _
    _ ≤ stream.size := hstatements.length_le
    _ ≤ source.toList.length := size_tokenize_le hstream

/-! ## What a loader takes out of a text -/

theorem length_toList_le (text : String) : text.toList.length ≤ text.utf8ByteSize := by
  rw [← byteLength_toList]
  generalize text.toList = characters
  induction characters with
  | nil => exact Nat.le_refl _
  | cons c rest ih =>
    have hpos := c.utf8Size_pos
    rw [List.length_cons, byteLength_cons]
    omega

/-- **A module makes no more than two requests for each byte of its text.** -/
theorem length_requests_le {exportsName text : String} {loader : Loader} {script : Script}
    (h : transform exportsName (loader.take text).script = .ok script) :
    (Linking.requestsOf (loader.take text).markers script.imports).paths.length ≤
      2 * text.utf8ByteSize := by
  have hbytes := length_toList_le text
  have himports := length_imports_le h
  have hrequests := length_requestsOf_le (loader.take text).markers script.imports
  have hscript : (loader.take text).script.toList.length ≤ text.toList.length := by
    cases loader with
    | component => exact length_script_le text
    | _ => exact Nat.le_refl _
  have hmarkers : (loader.take text).markers.length ≤ text.toList.length := by
    cases loader with
    | component =>
      exact Nat.le_trans (Nat.le_of_eq (List.length_map _)) (length_occurrences_le _ _)
    | _ => exact Nat.le_trans (Nat.le_of_eq (List.length_map _)) (length_occurrences_le _ _)
  omega

/-- A component has no more styles than its text has bytes. -/
theorem length_styles_le {text : String} {loader : Loader} {component : Component}
    (h : (loader.take text).component = some component) :
    component.styles.length ≤ text.utf8ByteSize := by
  cases loader with
  | component =>
    obtain rfl := Option.some.inj h
    show (List.map _ _).length ≤ _
    rw [List.length_map]
    exact Nat.le_trans (length_occurrences_le _ _) (length_toList_le text)
  | _ => exact absurd h (by simp [Loader.take])

end ScriptLink
