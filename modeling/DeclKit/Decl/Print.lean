/-
Declaration trees as text.

A file has one statement or member a line, four spaces of indentation a level, and a semicolon after
each. A single type is written on one line, for messages. Both layouts come from one printer, which is
told how to break a line and how to write the comments of a member.
-/
import DeclKit.Comment
import DeclKit.Decl.Tree

set_option autoImplicit false

namespace DeclKit.Decl

/-! ## Layout -/

/-- How members are laid out. -/
inductive Layout where
  /-- All on one line. -/
  | line
  /-- One a line; `newLine` ends lines, and `comments` gives the comment lines of an origin. -/
  | block (newLine : String) (comments : Option Origin → List String)

/-- The blanks before a line at a level. -/
def indentation (level : Nat) : String := Text.repeated level "    "

/-- Comment lines at a level, each with its line end. -/
def commentBlock (newLine : String) (level : Nat) (lines : List String) : String :=
  String.join (lines.map fun l => indentation level ++ l ++ newLine)

/-- Texts in angle brackets; nothing for none. -/
def angles (items : List String) : String :=
  if items.isEmpty then "" else "<" ++ ", ".intercalate items ++ ">"

/-- A text when a flag is set. -/
def flagged (flag : Bool) (s : String) : String := if flag then s else ""

/-- The sign of a modifier of a mapped type. -/
def Sign.text : Sign → String
  | add => "+"
  | remove => "-"
  | plain => ""

/-- Members in braces. The opening comments of each stand before it in the block layout. -/
def braced (l : Layout) (level : Nat) (members : List (Option Origin × String)) : String :=
  if members.isEmpty then "\x7b\x7d"
  else match l with
    | .line => "\x7b " ++ String.join (members.map fun (_, s) => s ++ " ") ++ "\x7d"
    | .block newLine comments =>
      "\x7b" ++ newLine ++ String.join (members.map fun (o, s) =>
        commentBlock newLine (level + 1) (comments o) ++ indentation (level + 1) ++ s ++ newLine) ++
        indentation level ++ "\x7d"

/-- The level of what stands inside braces. -/
def Layout.inner (l : Layout) (level : Nat) : Nat :=
  match l with
  | .line => level
  | .block .. => level + 1

/-! ## Types -/

mutual

/-- The text of a type at a level. -/
def TypeNode.print (l : Layout) (level : Nat) : TypeNode → String
  | .mk f _ => f.print l level

/-- The text of a form at a level. -/
def TypeForm.print (l : Layout) (level : Nat) : TypeForm → String
  | .keyword k => k.text
  | .literal s => s
  | .template h ss => "`" ++ h ++ printSpans l level ss ++ "`"
  | .reference n as => ".".intercalate n ++ angles (printTypes l level as)
  | .imported m q as =>
    "import(" ++ m ++ ")" ++ String.join (q.map ("." ++ ·)) ++ angles (printTypes l level as)
  | .union ts => " | ".intercalate (printTypes l level ts)
  | .intersection ts => " & ".intercalate (printTypes l level ts)
  | .array t => t.print l level ++ "[]"
  | .tuple is => "[" ++ ", ".intercalate (printItems l level is) ++ "]"
  | .paren t => "(" ++ t.print l level ++ ")"
  | .function s => printSignature l level " => " s
  | .constructor a s => flagged a "abstract " ++ "new " ++ printSignature l level " => " s
  | .object ms => braced l level (printMembers l (l.inner level) ms)
  | .mapped ⟨r, p, c, n, o, t⟩ =>
    let inner := l.inner level
    let body :=
      (match r with
        | some sign => sign.text ++ "readonly "
        | none => "") ++
      "[" ++ p ++ " in " ++ c.print l inner ++ printOption l inner " as " n ++ "]" ++
      (match o with
        | some sign => sign.text ++ "?"
        | none => "") ++
      printOption l inner ": " t ++ ";"
    match l with
    | .line => "\x7b " ++ body ++ " \x7d"
    | .block newLine _ =>
      "\x7b" ++ newLine ++ indentation (level + 1) ++ body ++ newLine ++ indentation level ++ "\x7d"
  | .indexed t i => t.print l level ++ "[" ++ i.print l level ++ "]"
  | .operator op t => op.text ++ " " ++ t.print l level
  | .query n as => "typeof " ++ ".".intercalate n ++ angles (printTypes l level as)
  | .conditional a b c d =>
    a.print l level ++ " extends " ++ b.print l level ++ " ? " ++ c.print l level ++ " : " ++
      d.print l level
  | .infer n c => "infer " ++ n ++ printOption l level " extends " c
  | .predicate a p t => flagged a "asserts " ++ p ++ printOption l level " is " t
  | .this => "this"

/-- The texts of types. -/
def printTypes (l : Layout) (level : Nat) : List TypeNode → List String
  | [] => []
  | t :: ts => t.print l level :: printTypes l level ts

/-- The text of a type that may be missing, with what stands before it. -/
def printOption (l : Layout) (level : Nat) (before : String) : Option TypeNode → String
  | none => ""
  | some t => before ++ t.print l level

/-- The text of the spans of a template. -/
def printSpans (l : Layout) (level : Nat) : List (TemplateSpan TypeNode) → String
  | [] => ""
  | ⟨t, s⟩ :: more => "$\x7b" ++ t.print l level ++ "\x7d" ++ s ++ printSpans l level more

/-- The texts of the elements of a tuple. -/
def printItems (l : Layout) (level : Nat) : List (TupleItem TypeNode) → List String
  | [] => []
  | ⟨k, n, t⟩ :: more =>
    let mark := flagged (k == .optional) "?"
    let body := match n with
      | some name => name ++ mark ++ ": " ++ t.print l level
      | none => t.print l level ++ mark
    (flagged (k == .rest) "..." ++ body) :: printItems l level more

/-- The text of a signature; `arrow` stands before what is returned. -/
def printSignature (l : Layout) (level : Nat) (arrow : String) : Signature TypeNode → String
  | ⟨ts, ps, r⟩ =>
    angles (printTypeParams l level ts) ++ "(" ++ ", ".intercalate (printParams l level ps) ++ ")" ++
      arrow ++ (match r with
        | some t => t.print l level
        | none => "any")

/-- The texts of type parameters. -/
def printTypeParams (l : Layout) (level : Nat) : List (TypeParam TypeNode) → List String
  | [] => []
  | ⟨n, k, c, d⟩ :: more =>
    (flagged k "const " ++ n ++ printOption l level " extends " c ++ printOption l level " = " d) ::
      printTypeParams l level more

/-- The texts of parameters. -/
def printParams (l : Layout) (level : Nat) : List (Param TypeNode) → List String
  | [] => []
  | ⟨r, n, o, t⟩ :: more =>
    (flagged r "..." ++ n ++ flagged o "?" ++ printOption l level ": " t) :: printParams l level more

/-- The text of a member. -/
def printMember (l : Layout) (level : Nat) : Member TypeNode → String
  | .property _ r n q t => flagged r "readonly " ++ n ++ flagged q "?" ++ printOption l level ": " t
  | .method _ n q s => n ++ flagged q "?" ++ printSignature l level ": " s
  | .call _ s => printSignature l level ": " s
  | .construct _ s => "new " ++ printSignature l level ": " s
  | .index _ r p k t =>
    flagged r "readonly " ++ "[" ++ p ++ ": " ++ k.print l level ++ "]: " ++ t.print l level

/-- The texts of members, each with its semicolon. -/
def printMembers (l : Layout) (level : Nat) : List (Member TypeNode) → List (Option Origin × String)
  | [] => []
  | x :: more => (x.origin, printMember l level x ++ ";") :: printMembers l level more

end

/-- A type on one line. -/
def TypeNode.text (t : TypeNode) : String := t.print .line 0

/-! ## Files -/

/-- How a file is written. -/
structure PrintOptions where
  newLine : String := "\n"
  removeComments : Bool := false

/-- The comment lines of an origin: the lines of the comments that lead it, those of a block comment
that start with a star set in by one space. -/
def commentLines (sources : Sources) (file : SourceId) (o : Option Origin) : List String :=
  match o with
  | none => []
  | some origin =>
    let text := (sources.get (origin.source.getD file)).text
    (Comment.leadingTexts text origin.fullStart).flatMap fun c =>
      (Text.splitLines c).zipIdx.map fun (line, i) =>
        if i == 0 then line
        else
          let body := Text.trim line
          if body.startsWith "*" then " " ++ body else body

/-- The layout of a file. -/
def PrintOptions.layout (o : PrintOptions) (sources : Option Sources) (file : SourceId) : Layout :=
  .block o.newLine fun origin => match sources with
    | some m => if o.removeComments then [] else commentLines m file origin
    | none => []

/-- An import or export list. -/
def printSpecifiers (specifiers : List Specifier) : String :=
  if specifiers.isEmpty then "\x7b\x7d"
  else
    let item (s : Specifier) := flagged s.typeOnly "type " ++ (match s.propertyName with
      | some p => p ++ " as " ++ s.name
      | none => s.name)
    "\x7b " ++ ", ".intercalate (specifiers.map item) ++ " \x7d"

/-- The words before a declaration; inside a module block nothing is declared ambient. -/
def printModifiers (ambient : Bool) (m : Modifiers) : String :=
  flagged m.isExport "export " ++ flagged m.isDefault "default " ++
    flagged (m.isDeclare && !ambient) "declare "

/-- The text of an import. -/
def printImport (s : Import) : String :=
  let parts := s.default.toList ++ (s.namespace_.map ("* as " ++ ·)).toList ++
    (s.named.map printSpecifiers).toList
  "import " ++ flagged s.typeOnly "type " ++
    (if parts.isEmpty then "" else ", ".intercalate parts ++ " from ") ++ s.module ++ ";"

/-- The text of an export statement. -/
def printExport (s : Export) : String :=
  "export " ++ flagged s.typeOnly "type " ++ (match s.clause with
    | .named specifiers => printSpecifiers specifiers
    | .star none => "*"
    | .star (some name) => "* as " ++ name) ++
    (match s.module with
      | some m => " from " ++ m
      | none => "") ++ ";"

/-- The text of a variable. -/
def printVariable (l : Layout) (level : Nat) (v : Variable) : String :=
  v.name ++ printOption l level ": " v.type ++ (match v.initializer with
    | some s => " = " ++ s
    | none => "")

/-- The body of an interface, which keeps its braces on lines of their own when it is empty. -/
def printBody (l : Layout) (level : Nat) (members : List (Member TypeNode)) : String :=
  match l, members with
  | .block newLine _, [] => "\x7b" ++ newLine ++ indentation level ++ "\x7d"
  | _, _ => braced l level (printMembers l (l.inner level) members)

/-- The text of a statement. -/
def Statement.print (l : Layout) (level : Nat) (ambient : Bool) : Statement → String
  | .importing s => printImport s
  | .exporting s => printExport s
  | .assignment s => (if s.isDefault then "export default " else "export = ") ++ s.expression ++ ";"
  | .typeAlias s =>
    printModifiers ambient s.modifiers ++ "type " ++ s.name ++
      angles (printTypeParams l level s.typeParams) ++ " = " ++ s.type.print l level ++ ";"
  | .interface s =>
    printModifiers ambient s.modifiers ++ "interface " ++ s.name ++
      angles (printTypeParams l level s.typeParams) ++
      (if s.heritage.isEmpty then ""
        else " extends " ++ ", ".intercalate (printTypes l level s.heritage)) ++
      " " ++ printBody l level s.members
  | .function s =>
    printModifiers ambient s.modifiers ++ "function " ++ s.name ++
      printSignature l level ": " s.signature ++ ";"
  | .variableList s =>
    printModifiers ambient s.modifiers ++ s.keyword.text ++ " " ++
      ", ".intercalate (s.items.map (printVariable l level)) ++ ";"

/-- The statements of a file at a level. -/
def printStatements (o : PrintOptions) (sources : Option Sources) (level : Nat) (ambient : Bool)
    (f : File) : String :=
  let l := o.layout sources f.source
  String.join (f.statements.map fun s =>
    (match l with
      | .block newLine comments => commentBlock newLine level (comments s.origin)
      | .line => "") ++
    indentation level ++ s.print l level ambient ++ o.newLine)

/-- The text of a file. -/
def File.print (o : PrintOptions) (sources : Option Sources) (f : File) : String :=
  printStatements o sources 0 false f

/-- Files as module blocks, one behind the other. -/
def printBundle (o : PrintOptions) (sources : Option Sources) (moduleName : SourceId → String)
    (files : List File) : String :=
  String.join (files.map fun f =>
    "declare module \"" ++ moduleName f.source ++ "\" \x7b" ++ o.newLine ++
      printStatements o sources 1 true f ++ "\x7d" ++ o.newLine)

end DeclKit.Decl
