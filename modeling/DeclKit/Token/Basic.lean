/-
Tokens and their kinds.

One enumeration serves tokens and tree nodes: the leaves of a source tree carry token kinds and its inner
nodes carry node kinds. Words that are keywords only in some positions (`type`, `interface`, `keyof`,
`string`) are identifiers here and are recognised by their text where the grammar asks for them.

A token has a kind, the byte offset at which it starts, and its text. The lexer cuts a text into lexemes,
which have no offsets; `place` puts them one behind the other. So tokens lie side by side by construction,
and that they cover the text is one fact about the lexer.

Offsets are natural numbers here. A program that keeps them in 32 bits has the same ones for texts of less
than 2^32 bytes.
-/

set_option autoImplicit false

namespace DeclKit

/-- Token kinds, then node kinds. -/
inductive Kind where
  -- punctuation
  | parenOpen | parenClose | bracketOpen | bracketClose | braceOpen | braceClose
  | lt | gt | comma | semicolon | colon | question | dot | dotDotDot | equals | arrow
  | pipe | amp | plus | minus | star | slash | bang | atSign | operator
  -- literals
  | stringLiteral | numberLiteral | bigIntLiteral
  | noSubstitutionTemplate | templateHead | templateMiddle | templateTail
  -- reserved words
  | kwExport | kwImport | kwConst | kwVar | kwFunction | kwDefault | kwExtends | kwTypeof | kwNew
  | kwVoid | kwNull | kwTrue | kwFalse | kwThis | kwIn | kwClass | kwEnum | kwReturn
  | ident
  -- trivia
  | whitespace | newline | lineComment | blockComment | shebang
  -- what no rule matches, and recovery nodes
  | garbage | error
  -- statements and their parts
  | root | importDecl | importClause | namespaceImport | namedImports | importSpecifier
  | moduleSpecifier | exportDecl | namedExports | exportSpecifier | exportStar | exportAssignment
  | typeAliasDecl | interfaceDecl | heritageClause | functionDecl | functionBody
  | variableStatement | variableDecl | initializer | unsupportedDecl | expressionStmt
  | name | typeParamList | typeParam | constraint | defaultType | paramList | param
  | colonType | returnType | typeArgList
  -- types and their parts
  | keywordType | literalType | templateLiteralType | templateSpan | typeRef | entityName
  | unionType | intersectionType | arrayType | tupleType | namedTupleMember | optionalType
  | restType | parenType | functionType | constructorType | objectType | propertySig | methodSig
  | callSig | constructSig | indexSig | mappedType | mappedTypeParam | indexedAccessType
  | typeOperator | typeQuery | conditionalType | inferType | typePredicate | thisType
deriving DecidableEq, Hashable, Repr, Inhabited

namespace Kind

/-- Tokens that carry no meaning of their own: blanks, line ends and comments. -/
def isTrivia : Kind → Bool
  | whitespace | newline | lineComment | blockComment | shebang => true
  | _ => false

/-- Comments of either form. -/
def isComment : Kind → Bool
  | lineComment | blockComment => true
  | _ => false

/-- Reserved words. All of them are still valid property names. -/
def isKeyword : Kind → Bool
  | kwExport | kwImport | kwConst | kwVar | kwFunction | kwDefault | kwExtends | kwTypeof | kwNew
  | kwVoid | kwNull | kwTrue | kwFalse | kwThis | kwIn | kwClass | kwEnum | kwReturn => true
  | _ => false

/-- Tokens that can spell a member name. -/
def isIdentifierLike (k : Kind) : Bool := k == ident || k.isKeyword

/-- Nodes that are types by themselves. -/
def isTypeNode : Kind → Bool
  | keywordType | literalType | templateLiteralType | typeRef | unionType | intersectionType
  | arrayType | tupleType | parenType | functionType | constructorType | objectType | mappedType
  | indexedAccessType | typeOperator | typeQuery | conditionalType | inferType | typePredicate
  | thisType => true
  | _ => false

/-- Nodes that stand where a type can. A predicate does so only in return position and does not
count. -/
def isType (k : Kind) : Bool := k.isTypeNode && k != typePredicate

/-- The reserved word of a text. -/
def keyword? : String → Option Kind
  | "export" => some kwExport
  | "import" => some kwImport
  | "const" => some kwConst
  | "var" => some kwVar
  | "function" => some kwFunction
  | "default" => some kwDefault
  | "extends" => some kwExtends
  | "typeof" => some kwTypeof
  | "new" => some kwNew
  | "void" => some kwVoid
  | "null" => some kwNull
  | "true" => some kwTrue
  | "false" => some kwFalse
  | "this" => some kwThis
  | "in" => some kwIn
  | "class" => some kwClass
  | "enum" => some kwEnum
  | "return" => some kwReturn
  | _ => none

/-- The name of a kind in a dump. -/
def label : Kind → String
  | parenOpen => "ParenOpen" | parenClose => "ParenClose"
  | bracketOpen => "BracketOpen" | bracketClose => "BracketClose"
  | braceOpen => "BraceOpen" | braceClose => "BraceClose"
  | lt => "Lt" | gt => "Gt" | comma => "Comma" | semicolon => "Semicolon" | colon => "Colon"
  | question => "Question" | dot => "Dot" | dotDotDot => "DotDotDot" | equals => "Equals"
  | arrow => "Arrow" | pipe => "Pipe" | amp => "Amp" | plus => "Plus" | minus => "Minus"
  | star => "Star" | slash => "Slash" | bang => "Bang" | atSign => "At" | operator => "Operator"
  | stringLiteral => "StringLiteral" | numberLiteral => "NumberLiteral"
  | bigIntLiteral => "BigIntLiteral" | noSubstitutionTemplate => "NoSubstitutionTemplate"
  | templateHead => "TemplateHead" | templateMiddle => "TemplateMiddle"
  | templateTail => "TemplateTail"
  | kwExport => "KwExport" | kwImport => "KwImport" | kwConst => "KwConst" | kwVar => "KwVar"
  | kwFunction => "KwFunction" | kwDefault => "KwDefault" | kwExtends => "KwExtends"
  | kwTypeof => "KwTypeof" | kwNew => "KwNew" | kwVoid => "KwVoid" | kwNull => "KwNull"
  | kwTrue => "KwTrue" | kwFalse => "KwFalse" | kwThis => "KwThis" | kwIn => "KwIn"
  | kwClass => "KwClass" | kwEnum => "KwEnum" | kwReturn => "KwReturn" | ident => "Ident"
  | whitespace => "Whitespace" | newline => "Newline" | lineComment => "LineComment"
  | blockComment => "BlockComment" | shebang => "Shebang" | garbage => "Garbage"
  | error => "Error" | root => "Root" | importDecl => "ImportDecl"
  | importClause => "ImportClause" | namespaceImport => "NamespaceImport"
  | namedImports => "NamedImports" | importSpecifier => "ImportSpecifier"
  | moduleSpecifier => "ModuleSpecifier" | exportDecl => "ExportDecl"
  | namedExports => "NamedExports" | exportSpecifier => "ExportSpecifier"
  | exportStar => "ExportStar" | exportAssignment => "ExportAssignment"
  | typeAliasDecl => "TypeAliasDecl" | interfaceDecl => "InterfaceDecl"
  | heritageClause => "HeritageClause" | functionDecl => "FunctionDecl"
  | functionBody => "FunctionBody" | variableStatement => "VariableStatement"
  | variableDecl => "VariableDecl" | initializer => "Initializer"
  | unsupportedDecl => "UnsupportedDecl" | expressionStmt => "ExpressionStmt" | name => "Name"
  | typeParamList => "TypeParamList" | typeParam => "TypeParam" | constraint => "Constraint"
  | defaultType => "DefaultType" | paramList => "ParamList" | param => "Param"
  | colonType => "TypeAnnotation" | returnType => "ReturnType"
  | typeArgList => "TypeArgList" | keywordType => "KeywordType" | literalType => "LiteralType"
  | templateLiteralType => "TemplateLiteralType" | templateSpan => "TemplateSpan"
  | typeRef => "TypeRef" | entityName => "EntityName" | unionType => "UnionType"
  | intersectionType => "IntersectionType" | arrayType => "ArrayType" | tupleType => "TupleType"
  | namedTupleMember => "NamedTupleMember" | optionalType => "OptionalType"
  | restType => "RestType" | parenType => "ParenType" | functionType => "FunctionType"
  | constructorType => "ConstructorType" | objectType => "ObjectType"
  | propertySig => "PropertySig" | methodSig => "MethodSig" | callSig => "CallSig"
  | constructSig => "ConstructSig" | indexSig => "IndexSig" | mappedType => "MappedType"
  | mappedTypeParam => "MappedTypeParam" | indexedAccessType => "IndexedAccessType"
  | typeOperator => "TypeOperator" | typeQuery => "TypeQuery"
  | conditionalType => "ConditionalType" | inferType => "InferType"
  | typePredicate => "TypePredicate" | thisType => "ThisType"

end Kind

/-! ## Tokens -/

/-- A kind and the characters it covers. -/
structure Lexeme where
  kind : Kind
  chars : List Char
deriving DecidableEq, Repr

/-- A lexeme with its place in the text. -/
structure Token where
  kind : Kind
  start : Nat
  text : String
deriving DecidableEq, Repr, Inhabited

namespace Token

/-- The byte offset just after the token. -/
def stop (t : Token) : Nat := t.start + t.text.utf8ByteSize

/-- Lexemes one behind the other, from byte `start` on. -/
def place (start : Nat) : List Lexeme → List Token
  | [] => []
  | l :: ls =>
    let t : Token := ⟨l.kind, start, String.ofList l.chars⟩
    t :: place t.stop ls

end Token

end DeclKit
