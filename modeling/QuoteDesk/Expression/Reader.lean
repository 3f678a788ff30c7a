import QuoteDesk.Expression.Basic
import QuoteDesk.Expression.Token
import QuoteDesk.Symbol

/-
Expressions from texts: numbers joined by the four operators, or amounts of assets
joined by plus and minus with an optional target at the end. The target is looked at
before the terms, and the terms before the operators.
-/
namespace QuoteDesk.Expression

/-- The symbol that a word after a number stands for. -/
def assetSymbol (word : List Char) : Except ExpressionFault String :=
  let symbol := Text.capitals word
  if Symbol.isAsset symbol then .ok (String.ofList symbol)
  else .error (.assetToken (String.ofList word))

/-- The number that a literal stands for, digits as written. -/
def literalValue (literal : List Char) : Except ExpressionFault Decimal :=
  match Decimal.read (String.ofList literal) with
  | some d => .ok d
  | none => .error (.numberLiteral (String.ofList literal))

/-- The tokens before the keyword, and the target after it if the keyword is there. -/
def splitTarget (ts : List Token) : Except ExpressionFault (List Token × Option String) :=
  let isKeyword (t : Token) : Bool := t.kind == .keyword
  match ts.dropWhile (!isKeyword ·) with
  | [] => .ok (ts, none)
  | _ :: tail =>
    if tail.any isKeyword then .error .repeatedTarget
    else
      match tail with
      | [] => .error .incompleteTarget
      | [t] =>
        if t.kind ≠ .identifier then .error .invalidTarget
        else
          match Symbol.readCurrency "target" (String.ofList t.text) with
          | .error cause => .error (.targetSymbol cause)
          | .ok target =>
            let head := ts.takeWhile (!isKeyword ·)
            if head.isEmpty then .error .emptyBeforeTarget else .ok (head, some target)
      | _ => .error .invalidTarget

/-- The term at the start of some tokens, and the tokens after it. -/
def readTerm : List Token → Except ExpressionFault (Term × List Token)
  | [] => .error .endsWithOperator
  | t :: ts =>
    if t.kind ≠ .number then .error (.unknownToken (String.ofList t.text))
    else do
      let value ← literalValue t.text
      match ts with
      | u :: us =>
        if u.kind = .identifier then
          let symbol ← assetSymbol u.text
          return (.asset value symbol, us)
        else return (.number value, ts)
      | [] => return (.number value, [])

/-- Terms joined by operators; `fuel` bounds their number. -/
def readTerms : Nat → List Token → Except ExpressionFault (List Term × List Operator)
  | 0, _ => .error .endsWithOperator
  | fuel + 1, ts => do
    let (term, rest) ← readTerm ts
    match rest with
    | [] => return ([term], [])
    | t :: more =>
      if t.kind ≠ .operator then .error (.unknownToken (String.ofList t.text))
      else
        let (terms, operators) ← readTerms fuel more
        return (term :: terms, .ofText (String.ofList t.text) :: operators)

/-- The expression that a text stands for; without a target in it, prices are told in
the default one, which is read last. -/
def read (text defaultTarget : String) : Except Fault Expression :=
  if (Text.trimChars text.toList).isEmpty then .error (.expression .emptyQuery)
  else do
    let (terms, operators, target) ← ((do
      let tokens ← Token.ofText text
      let (tokens, target) ← splitTarget tokens
      let (terms, operators) ← readTerms (tokens.length + 1) tokens
      let hasAsset := terms.any (·.isAsset)
      if hasAsset && !operators.all (·.joinsAssets) then .error .assetOperator
      else if target.isSome && !hasAsset then .error .targetWithoutAssets
      else .ok (terms, operators, target)).mapError Fault.expression)
    match target with
    | some target => return ⟨terms, operators, target, true⟩
    | none =>
      let target ← (Symbol.readCurrency "default_fiat" defaultTarget).mapError Fault.input
      return ⟨terms, operators, target, false⟩

end QuoteDesk.Expression
