/-
**Failures and outcomes.**

* A `Failure` has a kind with a fixed code, and its text ends before the first null character
  (`Failure.what`).
* An `Outcome` is a value or the text of what went wrong. A failed outcome still answers for a
  value, the default one (`Outcome.value`); asking a successful outcome for its text is refused
  (`Outcome.message`).
-/

namespace TableMigration

/-! ### Failures -/

/-- What sort of thing went wrong. -/
inductive FailureKind where
  | unknown
  | invalidArgument
  | notFound
  | alreadyExists
  | resourceExhausted
  | internal
  deriving DecidableEq

/-- Every kind, in the order of the codes. -/
def FailureKind.all : List FailureKind :=
  [.unknown, .invalidArgument, .notFound, .alreadyExists, .resourceExhausted, .internal]

/-- The code of a kind. -/
def FailureKind.code : FailureKind → Nat
  | .unknown => 0
  | .invalidArgument => 1
  | .notFound => 2
  | .alreadyExists => 3
  | .resourceExhausted => 4
  | .internal => 5

/-- The name of a kind. -/
def FailureKind.name : FailureKind → String
  | .unknown => "UNKNOWN"
  | .invalidArgument => "INVALID_ARGUMENT"
  | .notFound => "NOT_FOUND"
  | .alreadyExists => "ALREADY_EXISTS"
  | .resourceExhausted => "RESOURCE_EXHAUSTED"
  | .internal => "INTERNAL"

/-- The kind of that name. -/
def FailureKind.parse? (name : String) : Option FailureKind :=
  FailureKind.all.find? fun kind => kind.name == name

/-- The part of a text before its first null character. -/
def beforeNull (text : String) : String :=
  String.ofList (text.toList.takeWhile fun char => char != '\x00')

/-- A failure as it is raised. -/
structure Failure where
  kind : FailureKind
  message : String
  deriving DecidableEq

/-- The text a failure shows: nothing from the first null character on. -/
def Failure.what (failure : Failure) : String :=
  beforeNull failure.message

/-! ### Outcomes -/

/-- A value, or the text of what went wrong. -/
abbrev Outcome (α : Type) := Except String α

namespace Outcome

variable {α : Type}

/-- The outcome of a raised failure. -/
def raise (failure : Failure) : Outcome α :=
  .error failure.what

/-- Whether there is a value. -/
def succeeded : Outcome α → Bool
  | .ok _ => true
  | .error _ => false

/-- The value, the default one if there is none. -/
def value [Inhabited α] : Outcome α → α
  | .ok result => result
  | .error _ => default

/-- The text of what went wrong. A success has none, and asking it for one is refused. -/
def message : Outcome α → Except String String
  | .ok _ => .error "Attempting to access error of ok result"
  | .error text => .ok text

end Outcome

end TableMigration
