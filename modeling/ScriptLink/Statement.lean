import ScriptLink.Binding
import ScriptLink.TokenStream

/-!
# Import and export statements

A statement is read from the tokens behind its keyword, trivia left out. Tokens are compared
by their text; where a name is called for, identifiers and keywords will do. The commas of a
specifier list are optional, and `as` behind a name always announces an alias.

* `importStatement` reads the imports, and answers none for the expressions that begin with
  the same keyword;
* `exportStatement` reads the three forms of an export.
-/

namespace ScriptLink

/-- A token that is no trivia, as statements see it. -/
structure Item where
  id : Nat
  kind : TokenKind
  text : String
  offset : Nat
  deriving DecidableEq, Repr

namespace TokenStream

/-- The token with index `id` as an item. -/
def item? (stream : TokenStream) (id : Nat) : Option Item :=
  (stream.get? id).map fun token => ⟨id, token.kind, token.lexeme, token.span.start⟩

/-- At most `count` items that follow each other behind the token `id`. -/
def following (stream : TokenStream) : Nat → Nat → List Item
  | 0, _ => []
  | count + 1, id =>
    match stream.next id with
    | none => []
    | some next =>
      match stream.item? next with
      | none => []
      | some item => item :: stream.following count next

/-- All items behind the token `id`. -/
def itemsAfter (stream : TokenStream) (id : Nat) : List Item := stream.following stream.size id

end TokenStream

namespace Item

/-- Whether the token can name something. -/
def isName (item : Item) : Bool := item.kind == .identifier || item.kind == .keyword

/-- The items behind the first one if that reads `text`, else all of them. -/
def skip (text : String) : List Item → List Item
  | [] => []
  | first :: rest => if first.text == text then rest else first :: rest

/-- Whether the first item reads `text`. -/
def startsWith (text : String) : List Item → Bool
  | [] => false
  | first :: _ => first.text == text

/-- The last token of a statement that `last` seems to end: the semicolon directly behind it
belongs to it. -/
def endOf (last : Nat) : List Item → Nat
  | [] => last
  | first :: _ => if first.text == ";" then first.id else last

theorem length_skip_le (text : String) (items : List Item) :
    (skip text items).length ≤ items.length := by
  cases items with
  | nil => simp [skip]
  | cons first rest => simp only [skip]; split <;> simp

end Item

/-- A name of a specifier list and the name it is changed to. -/
structure Specifier where
  name : String
  newName : Option String
  deriving DecidableEq, Repr

namespace Specifier

/-- The alias behind a name, if `as` announces one, and the items behind it. -/
def newName? (statement : StatementKind) :
    List Item → Except Malformed (Option String × List Item)
  | [] => .ok (none, [])
  | marker :: rest =>
    if marker.text == "as" then
      match rest with
      | renamed :: after =>
        if renamed.isName then .ok (some renamed.text, after)
        else .error ⟨statement, marker.offset, .aliasName⟩
      | [] => .error ⟨statement, marker.offset, .aliasName⟩
    else .ok (none, marker :: rest)

theorem length_of_newName?_ok {statement : StatementKind} {items after : List Item}
    {newName : Option String} (h : newName? statement items = .ok (newName, after)) :
    after.length ≤ items.length := by
  unfold newName? at h
  split at h
  · simp_all
  · split at h
    · split at h
      · split at h
        · simp only [Except.ok.injEq, Prod.mk.injEq] at h
          rw [← h.2]; simp only [List.length_cons]; omega
        · exact absurd h (by simp)
      · exact absurd h (by simp)
    · simp only [Except.ok.injEq, Prod.mk.injEq] at h
      exact Nat.le_of_eq (congrArg List.length h.2.symm)

/-- Reads specifiers up to the closing brace: the specifiers, the brace, and what is behind
it. `opened` is the offset of the opening brace, where a missing one is reported. -/
def list (statement : StatementKind) (opened : Nat) (items : List Item) :
    Except Malformed (List Specifier × Item × List Item) :=
  match items with
  | [] => .error ⟨statement, opened, .openList⟩
  | current :: rest =>
    if current.text == "\x7d" then .ok ([], current, rest)
    else if current.isName then
      match _h : newName? statement rest with
      | .error error => .error error
      | .ok (newName, after) =>
        match list statement opened (Item.skip "," after) with
        | .error error => .error error
        | .ok (specifiers, close, tail) =>
          .ok (⟨current.text, newName⟩ :: specifiers, close, tail)
    else .error ⟨statement, current.offset, .bindingName⟩
termination_by items.length
decreasing_by
  have h₁ := length_of_newName?_ok _h
  have h₂ := Item.length_skip_le "," after
  simp only [List.length_cons]; omega

end Specifier

/-! ## Imports -/

/-- An import statement: the path as written between its quotes, the bindings in order, and
the last token of the statement. -/
structure ImportStatement where
  path : String
  bindings : List Binding
  last : Nat
  deriving DecidableEq, Repr

/-- A literal without its first and its last character. -/
def unquote (literal : String) : String := String.ofList (literal.toList.drop 1).dropLast

namespace ImportStatement

/-- The default binding, if a plain identifier comes first, and the items behind it and an
optional comma. -/
def defaultBinding : List Item → List Binding × List Item
  | [] => ([], [])
  | first :: rest =>
    if first.kind = .identifier then ([.default first.text], Item.skip "," rest)
    else ([], first :: rest)

/-- The namespace behind a star. `offset` is the place of the statement. -/
def namespaceBinding (offset : Nat) (items : List Item) :
    Except Malformed (List Binding × List Item) :=
  match items with
  | marker :: rest =>
    if marker.text == "as" then
      match rest with
      | name :: after =>
        if name.isName then .ok ([.whole name.text], after)
        else .error ⟨.importing, offset, .namespaceName⟩
      | [] => .error ⟨.importing, offset, .namespaceName⟩
    else .error ⟨.importing, offset, .namespaceAs⟩
  | [] => .error ⟨.importing, offset, .namespaceAs⟩

/-- The namespace or the list of named bindings, if there is one, and the items behind it. -/
def otherBindings (offset : Nat) (items : List Item) :
    Except Malformed (List Binding × List Item) :=
  match items with
  | [] => .ok ([], [])
  | first :: rest =>
    if first.text == "*" then namespaceBinding offset rest
    else if first.text == "\x7b" then
      (Specifier.list .importing first.offset rest).map fun (specifiers, _, after) =>
        (specifiers.map fun specifier => .named specifier.name specifier.newName, after)
    else .ok ([], first :: rest)

/-- The path, and the semicolon behind it if there is one. -/
def withPath (offset : Nat) (bindings : List Binding) :
    List Item → Except Malformed ImportStatement
  | [] => .error ⟨.importing, offset, .modulePath⟩
  | path :: rest =>
    if path.kind = .string then .ok ⟨unquote path.text, bindings, Item.endOf path.id rest⟩
    else .error ⟨.importing, offset, .modulePath⟩

/-- The bindings, `from`, and the path. -/
def withBindings (offset : Nat) (items : List Item) : Except Malformed ImportStatement :=
  let (first, afterDefault) := defaultBinding items
  match otherBindings offset afterDefault with
  | .error error => .error error
  | .ok (others, after) =>
    if Item.startsWith "from" after then withPath offset (first ++ others) (after.drop 1)
    else .error ⟨.importing, offset, .fromKeyword⟩

end ImportStatement

/-- Reads the import statement whose keyword stands at `offset` from the items behind the
keyword; none for a dynamic import and for the properties of `import`. -/
def importStatement (offset : Nat) (items : List Item) :
    Except Malformed (Option ImportStatement) :=
  if Item.startsWith "(" items || Item.startsWith "." items then .ok none
  else if (items.head?.map Item.kind) = some .string then
    (ImportStatement.withPath offset [] items).map some
  else (ImportStatement.withBindings offset items).map some

/-! ## Exports -/

/-- An export statement. -/
inductive ExportStatement where
  /-- the default export: the token of `default`, and the first token of the expression -/
  | default (keyword : Nat) (target : Item)
  /-- a specifier list, and the last token of the statement -/
  | clause (specifiers : List Specifier) (last : Nat)
  /-- a declaration that stays in place, and the name it declares -/
  | declaration (name : Item)
  deriving DecidableEq, Repr

namespace ExportStatement

/-- A specifier list whose opening brace stands at `opened`. -/
def ofClause (offset opened : Nat) (items : List Item) : Except Malformed ExportStatement :=
  match Specifier.list .exporting opened items with
  | .error error => .error error
  | .ok (specifiers, close, after) =>
    if Item.startsWith "from" after then .error ⟨.exporting, offset, .reexport⟩
    else .ok (.clause specifiers (Item.endOf close.id after))

/-- The words that can begin an exported declaration, apart from `async`. -/
def declarators : List String := ["var", "let", "const", "function", "class"]

/-- A declaration: `async` if it is there, a declarator, a star if it is there, and a name. -/
def ofDeclaration (offset : Nat) (items : List Item) : Except Malformed ExportStatement :=
  match Item.skip "async" items with
  | [] => .error ⟨.exporting, offset, .declaration⟩
  | declarator :: rest =>
    if declarators.contains declarator.text then
      match Item.skip "*" rest with
      | [] => .error ⟨.exporting, offset, .declaredName⟩
      | name :: _ =>
        if name.kind = .identifier then .ok (.declaration name)
        else .error ⟨.exporting, offset, .declaredName⟩
    else .error ⟨.exporting, offset, .declaration⟩

end ExportStatement

/-- Reads the export statement whose keyword stands at `offset` from the items behind the
keyword. -/
def exportStatement (offset : Nat) (items : List Item) : Except Malformed ExportStatement :=
  match items with
  | [] => .error ⟨.exporting, offset, .declaration⟩
  | first :: rest =>
    if first.text == defaultName then
      match rest with
      | [] => .error ⟨.exporting, offset, .defaultExpression⟩
      | target :: _ => .ok (.default first.id target)
    else if first.text == "\x7b" then ExportStatement.ofClause offset first.offset rest
    else ExportStatement.ofDeclaration offset (first :: rest)

end ScriptLink
