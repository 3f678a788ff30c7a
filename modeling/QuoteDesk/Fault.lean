import QuoteDesk.Decimal.Basic

/-
Everything that can go wrong, told by its cause. A fault is an error with a
message for the user, a layer and an exit code; a provider's fault also says
whether asking again may help. A defect is a value that some step cannot take and
that no message is made for.
-/
namespace QuoteDesk

/-- What a symbol should have looked like. -/
inductive SymbolForm where
  | currency
  | asset
  deriving DecidableEq, Repr

/-- Causes that lie in symbols and amounts. -/
inductive InputFault where
  | symbol (field raw : String) (form : SymbolForm)
  | unreadableAmount (raw : String)
  | amountNotPositive (raw : String)
  | other (message : String)
  deriving DecidableEq, Repr

/-- Causes that lie in the text of an expression. -/
inductive ExpressionFault where
  | emptyQuery
  | unknownToken (near : String)
  | numberToken (near : String)
  | pointWithoutDigits
  | numberLiteral (literal : String)
  | assetToken (word : String)
  | endsWithOperator
  | repeatedTarget
  | incompleteTarget
  | invalidTarget
  | targetSymbol (cause : InputFault)
  | emptyBeforeTarget
  | targetWithoutAssets
  | assetOperator
  | noTerms
  | unsupportedOperator (text : String)
  | other (message : String)
  deriving DecidableEq, Repr

/-- Causes that lie with a source of prices. -/
inductive ProviderCause where
  | general (message : String)
  | transport (message : String)
  | http (status : Int) (message : String)
  | invalidResponse (message : String)
  | unsupportedPair (message : String)
  | unavailable (headline : String) (trace : List String)
  deriving DecidableEq, Repr

/-- A cause and the provider it is put down to, if known. -/
structure ProviderFault where
  cause : ProviderCause
  provider : Option String
  deriving DecidableEq, Repr

/-- Causes that lie with the store of prices. -/
inductive StoreFault where
  | unreadable (path : String)
  | unwritable (path : String)
  | other (message : String)
  deriving DecidableEq, Repr

inductive Fault where
  | general (message : String)
  | input (cause : InputFault)
  | expression (cause : ExpressionFault)
  | evaluation (message : String)
  | mixedModes (message : String)
  | divisionByZero (message : String)
  | provider (fault : ProviderFault)
  | store (cause : StoreFault)
  deriving DecidableEq, Repr

namespace SymbolForm

def description : SymbolForm → String
  | .currency => "3-letter ISO currency code"
  | .asset => "2-10 uppercase alphanumeric symbol"

end SymbolForm

namespace InputFault

def message : InputFault → String
  | .symbol field raw form =>
    "invalid " ++ field ++ " symbol: " ++ raw ++ " (expected " ++ form.description ++ ")"
  | .unreadableAmount raw => "invalid amount: " ++ raw
  | .amountNotPositive raw => "amount must be positive: " ++ raw
  | .other message => message

end InputFault

namespace ExpressionFault

def message : ExpressionFault → String
  | .emptyQuery => "query must not be empty"
  | .unknownToken near => "invalid token near `" ++ near ++ "`"
  | .numberToken near => "invalid number token near `" ++ near ++ "`"
  | .pointWithoutDigits => "invalid number token: decimal point must be followed by digits"
  | .numberLiteral literal => "invalid number token: " ++ literal
  | .assetToken word => "invalid asset token: " ++ word
  | .endsWithOperator => "expression cannot end with an operator"
  | .repeatedTarget => "only one to clause is allowed"
  | .incompleteTarget => "incomplete to clause: expected a 3-letter fiat code"
  | .invalidTarget => "invalid to clause: expected a single 3-letter fiat code"
  | .targetSymbol cause => cause.message
  | .emptyBeforeTarget => "expression must not be empty before to clause"
  | .targetWithoutAssets => "to clause requires asset terms"
  | .assetOperator => "unsupported operator in asset expression: only + and - are supported"
  | .noTerms => "expression must contain at least one term"
  | .unsupportedOperator text => "unsupported operator: " ++ text
  | .other message => message

end ExpressionFault

namespace ProviderCause

/-- The message; a trace, if there is one, follows the headline. -/
def message : ProviderCause → String
  | .general message | .transport message | .http _ message | .invalidResponse message
  | .unsupportedPair message => message
  | .unavailable headline [] => headline
  | .unavailable headline trace =>
    headline ++ " (provider trace: " ++ " | ".intercalate trace ++ ")"

/-- The kind of cause in words. -/
def description : ProviderCause → String
  | .general _ | .unavailable _ _ => "provider error"
  | .transport _ => "transport error"
  | .http status _ => "http error (" ++ String.ofList (intText status) ++ ")"
  | .invalidResponse _ => "invalid provider response"
  | .unsupportedPair _ => "unsupported trading pair"
where
  intText (i : Int) : List Char :=
    if i < 0 then '-' :: Digits.write i.natAbs else Digits.write i.natAbs

/-- The message after its kind; that no provider is left speaks for itself. -/
def text (c : ProviderCause) : String :=
  match c with
  | .unavailable _ _ => c.message
  | c => c.description ++ ": " ++ c.message

/-- Whether the same request may succeed a little later. -/
def retryable : ProviderCause → Bool
  | .transport _ => true
  | .http status _ => status == 429 || (500 ≤ status && status ≤ 599)
  | _ => false

/-- The errors of the providers that were tried. -/
def trace : ProviderCause → List String
  | .unavailable _ trace => trace
  | _ => []

end ProviderCause

namespace ProviderFault

/-- Put down to a provider, whatever it was put down to before. -/
def tagged (f : ProviderFault) (provider : String) : ProviderFault :=
  { f with provider := some provider }

def message (f : ProviderFault) : String := f.cause.message

def text (f : ProviderFault) : String := f.cause.text

def retryable (f : ProviderFault) : Bool := f.cause.retryable

end ProviderFault

namespace StoreFault

def message : StoreFault → String
  | .unreadable path => "failed to read cache entry " ++ path
  | .unwritable path => "failed to write cache entry " ++ path
  | .other message => message

end StoreFault

namespace Fault

def mixedModesMessage : String := "mixed numeric and asset terms are not supported"

def divisionByZeroMessage : String := "division by zero is not allowed"

def message : Fault → String
  | .general message | .evaluation message | .mixedModes message | .divisionByZero message =>
    message
  | .input cause => cause.message
  | .expression cause => cause.message
  | .provider fault => fault.message
  | .store cause => cause.message

/-- The message as it is recorded and traced: a provider's one names its kind. -/
def text : Fault → String
  | .provider fault => fault.text
  | f => f.message

def code : Fault → String
  | .general _ => "runtime.error"
  | .input _ => "user.invalid_input"
  | .expression _ => "user.syntax_error"
  | .evaluation _ | .mixedModes _ | .divisionByZero _ => "user.evaluation_error"
  | .provider _ => "runtime.provider_failed"
  | .store _ => "runtime.cache_failed"

def layer : Fault → String
  | .general _ => "runtime"
  | .input _ => "input"
  | .expression _ => "syntax"
  | .evaluation _ | .mixedModes _ | .divisionByZero _ => "evaluation"
  | .provider _ => "provider"
  | .store _ => "cache"

/-- Whether the user has to change what was asked. -/
def isUser : Fault → Bool
  | .input _ | .expression _ | .evaluation _ | .mixedModes _ | .divisionByZero _ => true
  | _ => false

def exitCode (f : Fault) : Nat := if f.isUser then 2 else 1

/-- Only faults of a provider that may pass are worth a second request. -/
def retryable : Fault → Bool
  | .provider fault => fault.retryable
  | _ => false

end Fault

/-- Values that a step cannot take. -/
inductive Defect where
  | invalidRecord
  | arithmetic (signal : Decimal.Signal)
  | wrongType
  | unknownName
  | outOfPlace
  | badValue
  | outOfRange
  | unexpected
  deriving DecidableEq, Repr

/-- Why there is no result. -/
inductive Failure where
  | fault (f : Fault)
  | defect (d : Defect)
  deriving DecidableEq, Repr

namespace Failure

def retryable : Failure → Bool
  | .fault f => f.retryable
  | .defect _ => false

def isUser : Failure → Bool
  | .fault f => f.isUser
  | .defect _ => false

end Failure

/-- A result or the reason why there is none. -/
abbrev Outcome (α : Type) := Except Failure α

namespace Outcome

/-- A result of arithmetic. -/
def ofArithmetic {α : Type} : Except Decimal.Signal α → Outcome α
  | .ok a => .ok a
  | .error s => .error (.defect (.arithmetic s))

def ofInput {α : Type} : Except InputFault α → Outcome α
  | .ok a => .ok a
  | .error cause => .error (.fault (.input cause))

def ofExpression {α : Type} : Except ExpressionFault α → Outcome α
  | .ok a => .ok a
  | .error cause => .error (.fault (.expression cause))

def ofProvider {α : Type} : Except ProviderCause α → Outcome α
  | .ok a => .ok a
  | .error cause => .error (.fault (.provider ⟨cause, none⟩))

end Outcome

end QuoteDesk
