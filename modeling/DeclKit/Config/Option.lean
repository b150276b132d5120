/-
Compiler options as a configuration file sets them.

A file may set an option to `null`, which takes back what the files it extends have set. A path is made
absolute as soon as it is read, by the directory of the file that sets it, so that settings of several
files can be laid one over the other without regard to where they came from.

What a file sets lies over what the files it extends set, and of these the later over the earlier.
Options are laid over each other one by one, the three lists of files as wholes.
-/
import DeclKit.Json.Basic
import DeclKit.Options
import DeclKit.Path

set_option autoImplicit false

namespace DeclKit.Config

/-- What kind of value an option takes. -/
inductive OptionType where
  | boolean
  | path
  | newLine
deriving DecidableEq, Repr

/-- The kind of value in words. -/
def OptionType.text : OptionType → String
  | boolean => "boolean"
  | path => "string"
  | newLine => "'crlf' | 'lf'"

/-- What an option is set to. -/
inductive OptionValue where
  /-- Set to `null`. -/
  | unset
  | flag (b : Bool)
  | path (p : String)
  | newLine (n : NewLine)
deriving DecidableEq, Repr, Inhabited

/-- A path with forward slashes. -/
def shown (path : String) : String := path.map fun c => if c == '\\' then '/' else c

/-- The line end that a word names, in letters of either case. -/
def newLineOf? (s : String) : Option NewLine :=
  match String.ofList (s.toList.map Char.toLower) with
  | "lf" => some .lf
  | "crlf" => some .crlf
  | _ => none

/-- Reads the value of an option in a file of a directory; none when it is of the wrong kind. -/
def OptionType.read? (type : OptionType) (directory : String) (value : Json) :
    Option OptionValue :=
  match value, type with
  | .null, _ => some .unset
  | .bool b, .boolean => some (.flag b)
  | .string s, .path => some (.path (shown (Path.resolve directory s)))
  | .string s, .newLine => (newLineOf? s).map .newLine
  | _, _ => none

/-- The options that have an effect. -/
def knownOptions : List (String × OptionType) :=
  [("composite", .boolean), ("declaration", .boolean), ("declarationDir", .path),
   ("emitDeclarationOnly", .boolean), ("incremental", .boolean), ("newLine", .newLine),
   ("noEmit", .boolean), ("noEmitOnError", .boolean), ("noImplicitAny", .boolean),
   ("noLib", .boolean), ("outDir", .path), ("outFile", .path), ("removeComments", .boolean),
   ("rootDir", .path), ("strict", .boolean), ("strictNullChecks", .boolean),
   ("tsBuildInfoFile", .path)]

/-- Options that other compilers of the language know and that do not change declarations. -/
def ignoredOptions : List String :=
  ["allowArbitraryExtensions", "allowImportingTsExtensions", "allowJs",
   "allowSyntheticDefaultImports", "allowUnreachableCode", "allowUnusedLabels", "alwaysStrict",
   "baseUrl", "checkJs", "declarationMap", "diagnostics", "downlevelIteration", "emitBOM",
   "emitDecoratorMetadata", "esModuleInterop", "exactOptionalPropertyTypes",
   "experimentalDecorators", "extendedDiagnostics", "forceConsistentCasingInFileNames",
   "importHelpers", "inlineSourceMap", "inlineSources", "isolatedDeclarations",
   "isolatedModules", "jsx", "jsxFactory", "jsxFragmentFactory", "jsxImportSource", "lib",
   "listEmittedFiles", "listFiles", "mapRoot", "module", "moduleDetection", "moduleResolution",
   "noErrorTruncation", "noFallthroughCasesInSwitch", "noImplicitOverride", "noImplicitReturns",
   "noImplicitThis", "noPropertyAccessFromIndexSignature", "noUncheckedIndexedAccess",
   "noUnusedLocals", "noUnusedParameters", "paths", "preserveConstEnums", "pretty",
   "resolveJsonModule", "rootDirs", "skipDefaultLibCheck", "skipLibCheck", "sourceMap",
   "sourceRoot", "strictBindCallApply", "strictBuiltinIteratorReturn", "strictFunctionTypes",
   "strictPropertyInitialization", "stripInternal", "target", "traceResolution", "typeRoots",
   "types", "useDefineForClassFields", "useUnknownInCatchVariables", "verbatimModuleSyntax",
   "watch"]

/-- What is known of an option's name. -/
inductive OptionStatus where
  | known (type : OptionType)
  | ignored
  | unknown
deriving DecidableEq, Repr

/-- Looks up an option's name. -/
def optionStatus (name : String) : OptionStatus :=
  match knownOptions.lookup name with
  | some type => .known type
  | none => if ignoredOptions.contains name then .ignored else .unknown

/-! ## Settings together -/

/-- Options that are set, by name; of two entries with one name the first counts. -/
abbrev Settings := List (String × OptionValue)

namespace Settings

/-- Whether an option is on; none when it is not set. -/
def flag? (s : Settings) (name : String) : Option Bool :=
  match s.lookup name with
  | some (.flag b) => some b
  | _ => none

/-- Whether an option is on. -/
def flag (s : Settings) (name : String) : Bool := (s.flag? name).getD false

/-- The path that an option is set to. -/
def path? (s : Settings) (name : String) : Option String :=
  match s.lookup name with
  | some (.path p) => some p
  | _ => none

/-- The line end that is set. -/
def newLine? (s : Settings) : Option NewLine :=
  match s.lookup "newLine" with
  | some (.newLine n) => some n
  | _ => none

/-- The options of a compilation that writes declarations and nothing else. What would ask for other
output is overruled. -/
def toOptions (s : Settings) : CompilerOptions :=
  { declaration := true
    emitDeclarationOnly := true
    declarationDir := s.path? "declarationDir"
    outDir := s.path? "outDir"
    outFile := s.path? "outFile"
    rootDir := s.path? "rootDir"
    noEmit := s.flag "noEmit"
    noEmitOnError := s.flag "noEmitOnError"
    removeComments := s.flag "removeComments"
    strict := s.flag "strict"
    strictNullChecks := s.flag? "strictNullChecks"
    noImplicitAny := s.flag? "noImplicitAny"
    noLib := s.flag "noLib"
    composite := false
    incremental := false
    tsBuildInfoFile := none
    newLine := s.newLine? }

end Settings

/-! ## Layers -/

/-- Patterns of files, and the directory from which they are meant. -/
structure Patterns where
  directory : String
  patterns : List String
deriving DecidableEq, Repr, Inhabited

/-- The patterns as absolute paths. -/
def Patterns.absolute (p : Patterns) : List String :=
  p.patterns.map fun pattern => shown (Path.resolve p.directory pattern)

/-- What one file sets, or several together. -/
structure Layer where
  settings : Settings := []
  files : Option (List String) := none
  included : Option Patterns := none
  excluded : Option Patterns := none
deriving DecidableEq, Repr, Inhabited

namespace Layer

/-- A layer with another one over it. -/
def overlay (base top : Layer) : Layer :=
  { settings := top.settings ++ base.settings
    files := top.files.or base.files
    included := top.included.or base.included
    excluded := top.excluded.or base.excluded }

/-- Layers one over the other, the last on top. -/
def pile (layers : List Layer) : Layer := layers.foldl overlay {}

end Layer

end DeclKit.Config
