/-
Compiler options.
-/

set_option autoImplicit false

namespace DeclKit

/-- How lines of written files end. -/
inductive NewLine where
  | lf
  | crlf
deriving DecidableEq, Repr, Inhabited

/-- The options of a compilation. Paths are absolute by the time they stand here. -/
structure CompilerOptions where
  declaration : Bool := false
  emitDeclarationOnly : Bool := false
  declarationDir : Option String := none
  outDir : Option String := none
  outFile : Option String := none
  rootDir : Option String := none
  noEmit : Bool := false
  noEmitOnError : Bool := false
  removeComments : Bool := false
  strict : Bool := false
  strictNullChecks : Option Bool := none
  noImplicitAny : Option Bool := none
  noLib : Bool := false
  composite : Bool := false
  incremental : Bool := false
  tsBuildInfoFile : Option String := none
  newLine : Option NewLine := none
deriving DecidableEq, Repr, Inhabited

namespace CompilerOptions

/-- `null` and `undefined` are types of their own; unset, this follows `strict`. -/
def nullChecks (o : CompilerOptions) : Bool := o.strictNullChecks.getD o.strict

/-- A parameter without a type is an error; unset, this follows `strict`. -/
def implicitAnyChecks (o : CompilerOptions) : Bool := o.noImplicitAny.getD o.strict

/-- The characters that end a line. -/
def lineEnd (o : CompilerOptions) : String :=
  match o.newLine with
  | some .crlf => "\r\n"
  | _ => "\n"

end CompilerOptions

end DeclKit
