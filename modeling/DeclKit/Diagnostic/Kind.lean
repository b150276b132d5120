/-
Kinds of diagnostics: their codes and their wording.

Each kind has a plain message and, where it takes details, a template whose numbered places the
details fill. Codes are those that users of the language already know.
-/
import DeclKit.Text.Offset

set_option autoImplicit false

namespace DeclKit

/-- What can be reported, grouped by the phase that reports it. -/
inductive DiagnosticKind where
  -- configuration
  | configText | configFileNotFound | extendsNotFound | extendsCircular | unknownCompilerOption
  | compilerOptionType | fileNotFound | noInputs | fileNotUnderRootDir
  -- parsing
  | unexpectedToken | expectedToken | expectedType | expectedIdentifier | expectedStringLiteral
  | declarationExpected | unterminatedLiteral | unsupportedForm
  -- binding
  | duplicateIdentifier | cannotRedeclareBlockScoped
  -- checking
  | cannotFindName | cannotFindNamespace | cannotFindModule | noExportedMember
  | namespaceNoExportedMember | namespaceUsedAsType | valueUsedAsType | genericArity | notGeneric
  | circularAlias | constraintNotSatisfied | propertyDoesNotExist | cannotIndexType
  | implicitAnyParameter | excessiveInstantiationDepth
  -- writing declarations
  | returnTypeRequired | variableTypeRequired
deriving DecidableEq, Hashable, Repr, Inhabited

namespace DiagnosticKind

/-- All kinds, in order. -/
def all : List DiagnosticKind :=
  [configText, configFileNotFound, extendsNotFound, extendsCircular, unknownCompilerOption,
   compilerOptionType, fileNotFound, noInputs, fileNotUnderRootDir, unexpectedToken, expectedToken,
   expectedType, expectedIdentifier, expectedStringLiteral, declarationExpected,
   unterminatedLiteral, unsupportedForm, duplicateIdentifier, cannotRedeclareBlockScoped,
   cannotFindName, cannotFindNamespace, cannotFindModule, noExportedMember,
   namespaceNoExportedMember, namespaceUsedAsType, valueUsedAsType, genericArity, notGeneric,
   circularAlias, constraintNotSatisfied, propertyDoesNotExist, cannotIndexType,
   implicitAnyParameter, excessiveInstantiationDepth, returnTypeRequired, variableTypeRequired]

/-- The name of a kind in reports to tools. -/
def label : DiagnosticKind → String
  | configText => "ConfigSyntax"
  | configFileNotFound => "ConfigFileNotFound"
  | extendsNotFound => "ExtendsNotFound"
  | extendsCircular => "ExtendsCircular"
  | unknownCompilerOption => "UnknownCompilerOption"
  | compilerOptionType => "CompilerOptionType"
  | fileNotFound => "FileNotFound"
  | noInputs => "NoInputs"
  | fileNotUnderRootDir => "FileNotUnderRootDir"
  | unexpectedToken => "UnexpectedToken"
  | expectedToken => "ExpectedToken"
  | expectedType => "ExpectedType"
  | expectedIdentifier => "ExpectedIdentifier"
  | expectedStringLiteral => "ExpectedStringLiteral"
  | declarationExpected => "DeclarationExpected"
  | unterminatedLiteral => "UnterminatedLiteral"
  | unsupportedForm => "UnsupportedSyntax"
  | duplicateIdentifier => "DuplicateIdentifier"
  | cannotRedeclareBlockScoped => "CannotRedeclareBlockScoped"
  | cannotFindName => "CannotFindName"
  | cannotFindNamespace => "CannotFindNamespace"
  | cannotFindModule => "CannotFindModule"
  | noExportedMember => "NoExportedMember"
  | namespaceNoExportedMember => "NamespaceNoExportedMember"
  | namespaceUsedAsType => "NamespaceUsedAsType"
  | valueUsedAsType => "ValueUsedAsType"
  | genericArity => "GenericArity"
  | notGeneric => "NotGeneric"
  | circularAlias => "CircularAlias"
  | constraintNotSatisfied => "ConstraintNotSatisfied"
  | propertyDoesNotExist => "PropertyDoesNotExist"
  | cannotIndexType => "CannotIndexType"
  | implicitAnyParameter => "ImplicitAnyParameter"
  | excessiveInstantiationDepth => "ExcessiveInstantiationDepth"
  | returnTypeRequired => "ReturnTypeRequired"
  | variableTypeRequired => "VariableTypeRequired"

/-- The kind of a name. -/
def ofLabel? (s : String) : Option DiagnosticKind := all.find? (·.label == s)

/-- The number by which users know the condition. -/
def code : DiagnosticKind → Nat
  | configText => 1005
  | configFileNotFound => 5083
  | extendsNotFound => 6053
  | extendsCircular => 18000
  | unknownCompilerOption => 5023
  | compilerOptionType => 5024
  | fileNotFound => 6053
  | noInputs => 18003
  | fileNotUnderRootDir => 6059
  | unexpectedToken => 1012
  | expectedToken => 1005
  | expectedType => 1110
  | expectedIdentifier => 1003
  | expectedStringLiteral => 1141
  | declarationExpected => 1128
  | unterminatedLiteral => 1002
  | unsupportedForm => 1109
  | duplicateIdentifier => 2300
  | cannotRedeclareBlockScoped => 2451
  | cannotFindName => 2304
  | cannotFindNamespace => 2503
  | cannotFindModule => 2307
  | noExportedMember => 2305
  | namespaceNoExportedMember => 2694
  | namespaceUsedAsType => 2709
  | valueUsedAsType => 2749
  | genericArity => 2314
  | notGeneric => 2315
  | circularAlias => 2456
  | constraintNotSatisfied => 2344
  | propertyDoesNotExist => 2339
  | cannotIndexType => 2536
  | implicitAnyParameter => 7006
  | excessiveInstantiationDepth => 2589
  | returnTypeRequired => 9007
  | variableTypeRequired => 9010

/-- Reported by the parser. -/
def isParsing : DiagnosticKind → Bool
  | unexpectedToken | expectedToken | expectedType | expectedIdentifier | expectedStringLiteral
  | declarationExpected | unterminatedLiteral | unsupportedForm => true
  | _ => false

/-- Reported while the configuration is read. -/
def isConfig : DiagnosticKind → Bool
  | configText | configFileNotFound | extendsNotFound | extendsCircular | unknownCompilerOption
  | compilerOptionType | fileNotFound | noInputs | fileNotUnderRootDir => true
  | _ => false

/-! ## Wording -/

/-- The message of a kind when no detail is given. -/
def plainMessage : DiagnosticKind → String
  | configText => "Invalid JSON in config file."
  | configFileNotFound => "Cannot read file."
  | extendsNotFound => "File not found."
  | extendsCircular => "Circularity detected while resolving configuration."
  | unknownCompilerOption => "Unknown compiler option."
  | compilerOptionType => "Compiler option has the wrong type."
  | fileNotFound => "File not found."
  | noInputs => "No inputs were found in config file."
  | fileNotUnderRootDir => "File is not under 'rootDir'."
  | unexpectedToken => "Unexpected token."
  | expectedToken => "Token expected."
  | expectedType => "Type expected."
  | expectedIdentifier => "Identifier expected."
  | expectedStringLiteral => "String literal expected."
  | declarationExpected => "Declaration or statement expected."
  | unterminatedLiteral => "Unterminated string literal."
  | unsupportedForm => "Expression expected."
  | duplicateIdentifier => "Duplicate identifier."
  | cannotRedeclareBlockScoped => "Cannot redeclare block-scoped variable."
  | cannotFindName => "Cannot find name."
  | cannotFindNamespace => "Cannot find namespace."
  | cannotFindModule => "Cannot find module."
  | noExportedMember => "Module has no exported member."
  | namespaceNoExportedMember => "Namespace has no exported member."
  | namespaceUsedAsType => "Cannot use namespace as a type."
  | valueUsedAsType => "Value is being used as a type here."
  | genericArity => "Generic type requires type arguments."
  | notGeneric => "Type is not generic."
  | circularAlias => "Type alias circularly references itself."
  | constraintNotSatisfied => "Type does not satisfy the constraint."
  | propertyDoesNotExist => "Property does not exist on type."
  | cannotIndexType => "Type cannot be used as an index type."
  | implicitAnyParameter => "Parameter implicitly has an 'any' type."
  | excessiveInstantiationDepth => "Type instantiation is excessively deep and possibly infinite."
  | returnTypeRequired =>
    "Function must have an explicit return type annotation with --isolatedDeclarations."
  | variableTypeRequired =>
    "Variable must have an explicit type annotation with --isolatedDeclarations."

/-- The message of a kind with numbered places for its details. -/
def template : DiagnosticKind → String
  | configFileNotFound => "Cannot read file '{0}'."
  | extendsNotFound | fileNotFound => "File '{0}' not found."
  | extendsCircular => "Circularity detected while resolving configuration: {0}"
  | unknownCompilerOption => "Unknown compiler option '{0}'."
  | compilerOptionType => "Compiler option '{0}' requires a value of type {1}."
  | noInputs =>
    "No inputs were found in config file '{0}'. Specified 'include' paths were '{1}' and " ++
    "'exclude' paths were '{2}'."
  | fileNotUnderRootDir =>
    "File '{0}' is not under 'rootDir' '{1}'. 'rootDir' is expected to contain all source files."
  | expectedToken => "'{0}' expected."
  | unsupportedForm => "{0} are not supported in declaration sources."
  | duplicateIdentifier => "Duplicate identifier '{0}'."
  | cannotRedeclareBlockScoped => "Cannot redeclare block-scoped variable '{0}'."
  | cannotFindName => "Cannot find name '{0}'."
  | cannotFindNamespace => "Cannot find namespace '{0}'."
  | cannotFindModule => "Cannot find module '{0}' or its corresponding type declarations."
  | noExportedMember => "Module '\"{0}\"' has no exported member '{1}'."
  | namespaceNoExportedMember => "Namespace '{0}' has no exported member '{1}'."
  | namespaceUsedAsType => "Cannot use namespace '{0}' as a type."
  | valueUsedAsType =>
    "'{0}' refers to a value, but is being used as a type here. Did you mean 'typeof {0}'?"
  | genericArity => "Generic type '{0}' requires {1} type argument(s)."
  | notGeneric => "Type '{0}' is not generic."
  | circularAlias => "Type alias '{0}' circularly references itself."
  | constraintNotSatisfied => "Type '{0}' does not satisfy the constraint '{1}'."
  | propertyDoesNotExist => "Property '{0}' does not exist on type '{1}'."
  | cannotIndexType => "Type '{0}' cannot be used to index type '{1}'."
  | implicitAnyParameter => "Parameter '{0}' implicitly has an 'any' type."
  | _ => "{0}"

/-- The place of the detail with a number. -/
def placeholder (i : Nat) : List Char := '{' :: (toString i).toList ++ ['}']

/-- Fills in details one after the other, counting from `i`. -/
def fillFrom (i : Nat) (text : List Char) : List String → List Char
  | [] => text
  | arg :: more => fillFrom (i + 1) (Text.replaceAll (placeholder i) arg.toList text) more

/-- The message of a kind with details; without any it is the plain message. -/
def message (k : DiagnosticKind) (args : List String) : String :=
  if args.isEmpty then k.plainMessage else String.ofList (fillFrom 0 k.template.toList args)

end DiagnosticKind

end DeclKit
