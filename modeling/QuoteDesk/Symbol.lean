import QuoteDesk.Pair
import QuoteDesk.Fault
import QuoteDesk.Text.Blank
import QuoteDesk.Text.Letter

/-
Symbols of currencies and assets: three letters for a currency, two to ten letters
and digits for an asset, always capital. Blanks around a symbol and the case of
its letters do not matter when it is read.
-/
namespace QuoteDesk.Symbol

/-- The characters of a symbol as written by a user, brought to their one form. -/
def normalForm (raw : String) : List Char := Text.capitals (Text.trimChars raw.toList)

def isCurrency (cs : List Char) : Bool := cs.length == 3 && cs.all Text.isLetter

def isAsset (cs : List Char) : Bool :=
  2 ≤ cs.length && cs.length ≤ 10 && cs.all Text.isAlphanumeric

def readCurrency (field raw : String) : Except InputFault String :=
  if isCurrency (normalForm raw) then .ok (String.ofList (normalForm raw))
  else .error (.symbol field raw .currency)

def readAsset (field raw : String) : Except InputFault String :=
  if isAsset (normalForm raw) then .ok (String.ofList (normalForm raw))
  else .error (.symbol field raw .asset)

/-- A symbol for one side of a pair of the kind. -/
def readFor (kind : PairKind) (field raw : String) : Except InputFault String :=
  match kind with
  | .fx => readCurrency field raw
  | .crypto => readAsset field raw

/-- Whether a symbol, as it stands, may be that of a currency. -/
def looksFiat (s : String) : Bool := isCurrency s.toList

theorem isAlphanumeric_of_isLetter {c : Char} (h : Text.isLetter c) : Text.isAlphanumeric c := by
  simp [Text.isAlphanumeric, h]

theorem isAsset_of_isCurrency {cs : List Char} (h : isCurrency cs) : isAsset cs := by
  simp only [isCurrency, isAsset, Bool.and_eq_true, beq_iff_eq, List.all_eq_true,
    decide_eq_true_eq] at h ⊢
  exact ⟨by omega, fun c hc => isAlphanumeric_of_isLetter (h.2 c hc)⟩

end QuoteDesk.Symbol
