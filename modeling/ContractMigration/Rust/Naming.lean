import ContractMigration.Text.Case

/-!
# Names in the generated program

Names are broken into words where their case changes: behind a lower-case letter or a digit that a capital follows,
and before the last capital of an acronym that a lower-case letter follows. Functions get one handler and one context
each, and no two of them share either: a handler that is taken gets a number, and a context that is taken gets a
suffix. The names of a list depend on nothing that comes later in the list.
-/

namespace ContractMigration.Naming

open Text

/-- An ASCII capital. -/
def isCapital (c : Char) : Bool :=
  'A' ≤ c && c ≤ 'Z'

/-- A small ASCII letter. -/
def isSmall (c : Char) : Bool :=
  'a' ≤ c && c ≤ 'z'

/-- Separates the last capital of an acronym from the others when a small letter follows it. -/
def splitAcronyms : List Char → List Char
  | a :: b :: c :: rest =>
    if isCapital a && isCapital b && isSmall c then a :: '_' :: splitAcronyms (b :: c :: rest)
    else a :: splitAcronyms (b :: c :: rest)
  | name => name

/-- Separates a small letter or a digit from a capital behind it. -/
def splitHumps : List Char → List Char
  | a :: b :: rest =>
    if (isSmall a || a.isDigit) && isCapital b then a :: '_' :: splitHumps (b :: rest) else a :: splitHumps (b :: rest)
  | name => name

/-- Words in lower case with underscores between them, and none in front unless there is nothing else. -/
def snake (name : List Char) : List Char :=
  let lowered := lower (splitHumps (splitAcronyms name))
  match lowered.dropWhile (· == '_') with
  | [] => lowered
  | stripped => stripped

/-- Words with a capital each and nothing between them. -/
def pascal (name : List Char) : List Char :=
  (((snake name).splitOnP (· == '_')).filter (!·.isEmpty)).flatMap upperFirst

end ContractMigration.Naming

namespace ContractMigration

/-- A name in snake case. -/
def snakeCase (name : String) : String :=
  String.ofList (Naming.snake name.toList)

/-- A name in Pascal case. -/
def pascalCase (name : String) : String :=
  String.ofList (Naming.pascal name.toList)

/-- A name with its first character in upper case. -/
def capitalized (name : String) : String :=
  String.ofList (Text.upperFirst name.toList)

/-! ### Handlers and contexts -/

/-- The handler names that the program defines for itself. -/
def reservedHandlers : List String :=
  ["initialize"]

/-- The type names that the program defines or imports for itself. -/
def reservedContexts : List String :=
  ["Initialize", "Mint", "Token", "TokenAccount", "AssociatedToken", "System", "Signer"]

/-- The first of the candidates from number `n` on that is not taken, among as many as `tries`. -/
def firstFreeFrom (taken : List String) (candidate : Nat → String) : (tries n : Nat) → String
  | 0, n => candidate n
  | tries + 1, n =>
    if taken.contains (candidate n) then firstFreeFrom taken candidate tries (n + 1) else candidate n

/-- The first candidate that is not taken. Distinct candidates cannot all be taken, so one more try than there are
taken names is enough. -/
def firstFree (taken : List String) (candidate : Nat → String) : String :=
  firstFreeFrom taken candidate taken.length 0

/-- The names that a handler may get: the plain one, then with the numbers from two upwards. -/
def handlerCandidate (base : String) : Nat → String
  | 0 => base
  | n + 1 => base ++ "_" ++ toString (n + 2)

/-- The names that a context may get: the plain one, then with more and more suffixes. -/
def contextCandidate (base : String) : Nat → String
  | 0 => base
  | n + 1 => contextCandidate base n ++ "Accounts"

/-- The names of an instruction: its handler and its context. -/
structure HandlerName where
  handler : String
  context : String
deriving DecidableEq, Repr

/-- The names for functions when some names are already taken. -/
def handlerNamesFrom (handlers contexts : List String) : List String → List HandlerName
  | [] => []
  | name :: rest =>
    let handler := firstFree handlers (handlerCandidate (snakeCase name))
    let context := firstFree contexts (contextCandidate (pascalCase handler))
    ⟨handler, context⟩ :: handlerNamesFrom (handler :: handlers) (context :: contexts) rest

/-- The handler and the context of each function, in order. -/
def handlerNames (functions : List String) : List HandlerName :=
  handlerNamesFrom reservedHandlers reservedContexts functions

end ContractMigration
