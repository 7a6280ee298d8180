/-
  Errors: everything that can go wrong between writing a model and assembling its draws.

  Each constructor is a cause together with what its message names.  `Error.message` words
  it; faults of computations on values have no text of their own.  `Error.kind` is the class
  that a caller tells errors apart by.
-/
import Gibbs.Text.Identifier
import Gibbs.Value.Basic

namespace Gibbs

/-- The causes of errors. -/
inductive Error where
  | fault (f : Fault)
  /-- a variable with a name that is no identifier -/
  | variableName (name : String)
  /-- a model with a name that is no identifier -/
  | modelName (name : String)
  /-- data arguments with names that are no identifiers -/
  | dataNames (names : List String)
  /-- an expression where a literal needs a value -/
  | literalOfExpression
  /-- an expression as an index key -/
  | expressionKey
  /-- an attempt to list the items of an expression -/
  | notIterable (node : String)
  /-- an operation without a symbol cannot be displayed -/
  | symbolMissing
  /-- an abstract node cannot be displayed -/
  | notDisplayable
  /-- a value asked of an expression with variables -/
  | openExpression (text : String) (names : List String)
  /-- an abstract node cannot be compiled -/
  | notCompilable
  /-- an operation that names no class of nodes -/
  | operationWithoutClass
  /-- an operation whose class is none of operations -/
  | operationOfOtherClass
  /-- a family without a law or without parameters -/
  | familyIncomplete
  | parametersMissing (names : List String) (family : String)
  | parametersUnexpected (names : List String) (family : String)
  | parameterNotPositive (name family : String)
  | noStatements (model : String)
  | dataRepeated (names : List String)
  | nothingSampled (model : String)
  | dataSampled (names : List String)
  | nameShadowed (names : List String)
  /-- a reference to a name that nothing defines, with the statement that makes it -/
  | undefinedName (statement name : String)
  /-- a handle built with the wrong number of data arguments -/
  | handleData (model : String) (names : List String) (given : Nat)
  /-- a sweep called with the wrong number of data arguments -/
  | sweepData (model : String) (names : List String) (given : Nat)
  /-- a state without values for some sampled variables -/
  | stateIncomplete (missing : List String)
  | tooFewChains (given : Value)
  | thinTooSmall (given : Value)
  | discardNegative (given : Value)
  | drawsNegative (given : Value)
  | tooFewWorkers (given : Value)
  | ruleForManyChains
  | startCount (given chains : Nat)
  | spawnCount (given : Value)
  | unsplittableGenerator
  | unequalLengths (lengths : List Nat)
  | variableMissing (name : String)
  | stackedShapes (name : String) (expected : Shape) (others : List Shape)
  | rowShape (name : String) (expected found : Shape)
  | rowKind (name letter : String) (found : Kind)

instance : Inhabited Error := ⟨.fault .wrongType⟩

instance : Coe Fault Error := ⟨.fault⟩

namespace Error

/-- Names separated by commas, or a word for none. -/
def listed (names : List String) : String :=
  if names.isEmpty then "none" else ", ".intercalate names

/-- The text of an error; faults have none. -/
def message : Error → Option String
  | fault _ => none
  | variableName n => some ("Variable names must be valid identifiers, got '" ++ n ++ "'")
  | modelName n => some ("Model names must be valid identifiers, got '" ++ n ++ "'")
  | dataNames ns => some ("Data names must be valid identifiers, got " ++ Text.bracketed ns)
  | literalOfExpression => some "Literals cannot wrap other expressions"
  | expressionKey => some "Indices must be fixed values, not model expressions"
  | notIterable node => some ("'" ++ node ++ "' object is not iterable")
  | symbolMissing => some "The OPERATOR must be defined."
  | notDisplayable => some ""
  | openExpression text ns => some ("Cannot evaluate expression '" ++ text
      ++ "' outside of a model; it references the variable(s) " ++ ", ".intercalate ns ++ ".")
  | notCompilable => some ("Cannot compile expression of type "
      ++ "<class 'tinygibbs.model.components.expressions.Expression'>")
  | operationWithoutClass => some "DISTCLASS must be provided in class_attrs"
  | operationOfOtherClass => some "DISTCLASS must be a subclass of Transformation"
  | familyIncomplete =>
    some "The class attributes SCIPY_DIST and PARAM_TO_SCIPY_NAMES must be defined"
  | parametersMissing ns f =>
    some ("Missing parameters " ++ Text.bracketed ns ++ " for " ++ f ++ ".")
  | parametersUnexpected ns f =>
    some ("Unexpected parameters " ++ Text.bracketed ns ++ " for " ++ f ++ ".")
  | parameterNotPositive n f => some ("Parameter '" ++ n ++ "' of " ++ f ++ " must be positive.")
  | noStatements m => some ("Model '" ++ m ++ "' has no statements.")
  | dataRepeated ns => some ("Duplicate auxiliary data names: " ++ Text.bracketed ns)
  | nothingSampled m => some ("Model '" ++ m ++ "' must sample at least one variable.")
  | dataSampled ns =>
    some ("Sampled variables cannot share names with auxiliary data: " ++ Text.bracketed ns)
  | nameShadowed ns =>
    some ("Intermediate values cannot shadow sampled variables or data: " ++ Text.bracketed ns)
  | undefinedName s n => some ("'" ++ s ++ "' references '" ++ n ++ "', which is neither a sampled "
      ++ "variable, an auxiliary data argument, nor an intermediate value "
      ++ "assigned earlier in the sweep.")
  | handleData m ns k => some ("Model '" ++ m ++ "' expects " ++ toString ns.length
      ++ " auxiliary data argument(s) (" ++ listed ns ++ ") but " ++ toString k ++ " were given")
  | sweepData m ns k => some (m ++ "() takes " ++ toString ns.length
      ++ " auxiliary data argument(s) (" ++ listed ns ++ ") but " ++ toString k ++ " were given")
  | stateIncomplete ns =>
    some ("State is missing values for sampled variable(s): " ++ ", ".intercalate ns)
  | tooFewChains v => some ("n_chains must be at least 1, got " ++ v.shown)
  | thinTooSmall v => some ("thin must be at least 1, got " ++ v.shown)
  | discardNegative v => some ("discard_initial must be non-negative, got " ++ v.shown)
  | drawsNegative v => some ("n_draws must be non-negative, got " ++ v.shown)
  | tooFewWorkers v => some ("max_workers must be at least 1, got " ++ v.shown)
  | ruleForManyChains => some "A stopping callback can only be used with a single chain."
  | startCount k n =>
    some ("Got " ++ toString k ++ " initial states for " ++ toString n ++ " chains.")
  | spawnCount v => some ("Cannot spawn " ++ v.shown ++ " generators; need at least one.")
  | unsplittableGenerator => some ("Cannot create a random Generator from a RandomState object. "
      ++ "Please provide a random seed, SeedSequence or Generator instead.")
  | unequalLengths ls => some ("All chains must have the same number of draws to be assembled as "
      ++ "tensors; got lengths [" ++ ", ".intercalate (ls.map toString) ++ "].")
  | variableMissing n =>
    some ("Variable '" ++ n ++ "' is missing from some of the recorded states.")
  | stackedShapes n s ss => some ("Variable '" ++ n
      ++ "' has inconsistent shapes across draws: expected " ++ s.text ++ ", also found ["
      ++ ", ".intercalate (ss.map Shape.text) ++ "].")
  | rowShape n s t => some ("Variable '" ++ n ++ "' has inconsistent shapes across draws: expected "
      ++ s.text ++ ", found " ++ t.text ++ ".")
  | rowKind n l k => some ("Variable '" ++ n ++ "' has inconsistent types across draws: "
      ++ "expected dtype kind '" ++ l ++ "', found '" ++ k.letter ++ "' (" ++ k.name ++ ").")

end Error

/-- The classes of errors. -/
inductive ErrorKind where
  /-- a class of faults, which some errors of this library have too -/
  | fault (f : Fault)
  | notImplemented
  | modelDefinition
  | undefinedVariable
  | missingStateKey
  | shapeMismatch
  | typeMismatch
deriving DecidableEq, Repr

/-- The class of an error. -/
def Error.kind : Error → ErrorKind
  | fault f => .fault f
  | literalOfExpression | expressionKey | notIterable _ | notCompilable
  | operationOfOtherClass | parametersMissing _ _ | parametersUnexpected _ _
  | handleData _ _ _ | sweepData _ _ _ | unsplittableGenerator => .fault .wrongType
  | symbolMissing | notDisplayable | familyIncomplete => .notImplemented
  | noStatements _ | dataRepeated _ | nothingSampled _ | dataSampled _
  | nameShadowed _ => .modelDefinition
  | undefinedName _ _ => .undefinedVariable
  | stateIncomplete _ => .missingStateKey
  | unequalLengths _ | variableMissing _ | stackedShapes _ _ _ | rowShape _ _ _ =>
    .shapeMismatch
  | rowKind _ _ _ => .typeMismatch
  | _ => .fault .badValue

/-- A computation on values inside one that reports errors. -/
def orError {α : Type} (r : Except Fault α) : Except Error α := r.mapError .fault

end Gibbs
