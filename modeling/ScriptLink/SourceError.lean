/-!
# What can be wrong with a script

A script is refused for a literal that never ends or for an import or export statement of
an unknown form. The error is the cause with the byte offset of its place;
`SourceError.message` is the one function that words it.
-/

namespace ScriptLink

/-- The literals that can be left open. -/
inductive LiteralKind where
  | template
  | docComment
  | comment
  | string
  deriving DecidableEq, Repr

/-- How messages call the literal. -/
def LiteralKind.description : LiteralKind → String
  | template => "template literal"
  | docComment => "doc comment"
  | comment => "block comment"
  | string => "string literal"

/-- The statements that link modules. -/
inductive StatementKind where
  | importing
  | exporting
  deriving DecidableEq, Repr

/-- The keyword that begins the statement. -/
def StatementKind.keyword : StatementKind → String
  | importing => "import"
  | exporting => "export"

/-- Why a statement could not be followed. -/
inductive Reason where
  /-- a specifier list without its closing brace -/
  | openList
  /-- a specifier that does not begin with a name -/
  | bindingName
  /-- a specifier with `as` and no name after it -/
  | aliasName
  /-- a star without `as` -/
  | namespaceAs
  /-- a star and `as` without a name -/
  | namespaceName
  /-- names that no `from` follows -/
  | fromKeyword
  /-- no string where the path belongs -/
  | modulePath
  /-- `default` at the end of the script -/
  | defaultExpression
  /-- a specifier list that another module is named for -/
  | reexport
  /-- neither `default`, a list nor a declaration -/
  | declaration
  /-- a declaration that declares no single name -/
  | declaredName
  deriving DecidableEq, Repr

def Reason.text : Reason → String
  | openList => "unterminated `\x7b`"
  | bindingName => "expected a binding name"
  | aliasName => "expected a name after `as`"
  | namespaceAs => "expected `as` after `*`"
  | namespaceName => "expected a namespace name"
  | fromKeyword => "expected `from`"
  | modulePath => "expected a module path string"
  | defaultExpression => "expected an expression after `default`"
  | reexport => "re-exports are not supported"
  | declaration => "expected a declaration"
  | declaredName => "expected a declared name"

/-- A literal without its end, and the offset of its first byte. -/
structure Unterminated where
  literal : LiteralKind
  offset : Nat
  deriving DecidableEq, Repr

/-- A statement of an unknown form, and the offset of the token where that shows. -/
structure Malformed where
  statement : StatementKind
  offset : Nat
  reason : Reason
  deriving DecidableEq, Repr

/-- Why a script is refused. -/
inductive SourceError where
  | unterminated (error : Unterminated)
  | malformed (error : Malformed)
  deriving DecidableEq, Repr

def SourceError.message : SourceError → String
  | unterminated error =>
    "unterminated " ++ error.literal.description ++ " starting at offset " ++ toString error.offset
  | malformed error =>
    "malformed " ++ error.statement.keyword ++ " statement at offset " ++ toString error.offset ++
      ": " ++ error.reason.text

end ScriptLink
