import QuoteDesk.Proofs.Expression.Literal
import QuoteDesk.Proofs.Expression.Passes
import QuoteDesk.Proofs.Text.Run

/-
Symbols in the form in which they are kept: two to ten capital letters and digits.
Whatever reads a symbol gives one of this form, and reading it again changes nothing.
-/
namespace QuoteDesk

namespace Text

/-- The capital letters and the digits. -/
def isCapital (c : Char) : Bool := isDigit c || ('A' ≤ c && c ≤ 'Z')

theorem isCapital_iff (c : Char) :
    isCapital c = true ↔ (48 ≤ c.toNat ∧ c.toNat ≤ 57) ∨ (65 ≤ c.toNat ∧ c.toNat ≤ 90) := by
  rw [isCapital, Bool.or_eq_true, isDigit_iff]
  simp only [Bool.and_eq_true, decide_eq_true_eq, Char.le_def, UInt32.le_iff_toNat_le]
  exact Iff.rfl

theorem isAlphanumeric_of_isCapital {c : Char} (capital : isCapital c = true) :
    isAlphanumeric c = true := by
  rw [isCapital_iff] at capital
  rw [isAlphanumeric_iff, isDigit_iff, isLetter_iff]
  omega

theorem isSmall_iff (c : Char) :
    ('a' ≤ c && c ≤ 'z') = true ↔ 97 ≤ c.toNat ∧ c.toNat ≤ 122 := by
  simp only [Bool.and_eq_true, decide_eq_true_eq, Char.le_def, UInt32.le_iff_toNat_le]
  exact Iff.rfl

/-- A character without a capital form stays; every capital form is capital. -/
theorem capitalChar_cases (c : Char) :
    (capitalChar c).all isCapital = true ∨
      capitalChar c = [c] ∧ ¬ (97 ≤ c.toNat ∧ c.toNat ≤ 122) := by
  have raised : ∀ n < 123, 97 ≤ n → isCapital (Char.ofNat (n - 32)) = true := by decide
  unfold capitalChar
  split
  · rename_i small
    rw [isSmall_iff] at small
    left
    simp only [List.all_cons, List.all_nil, Bool.and_true]
    exact raised c.toNat (by omega) small.1
  · rename_i large
    rw [isSmall_iff] at large
    split
    all_goals first
      | exact .inr ⟨rfl, large⟩
      | exact .inl (by decide)

theorem isCapital_of_capitalChar {c d : Char} (member : d ∈ capitalChar c)
    (inside : isAlphanumeric d = true) : isCapital d = true := by
  rcases capitalChar_cases c with capital | ⟨same, large⟩
  · exact List.all_eq_true.mp capital d member
  · rw [same] at member
    obtain rfl := List.mem_singleton.mp member
    rw [isAlphanumeric_iff, isDigit_iff, isLetter_iff] at inside
    rw [isCapital_iff]
    omega

theorem isCapital_of_capitals {cs : List Char} {d : Char} (member : d ∈ capitals cs)
    (inside : isAlphanumeric d = true) : isCapital d = true := by
  obtain ⟨c, _, here⟩ := List.mem_flatMap.mp member
  exact isCapital_of_capitalChar here inside

theorem capitalChar_of_isCapital {c : Char} (capital : isCapital c = true) :
    capitalChar c = [c] := by
  rw [isCapital_iff] at capital
  have large : ('a' ≤ c && c ≤ 'z') = false := by
    rw [Bool.eq_false_iff, ne_eq, isSmall_iff]
    omega
  rw [capitalChar, large]
  split
  · rename_i absurd
    cases absurd
  · split <;> first | rfl | omega

theorem capitals_of_capital {cs : List Char} (capital : ∀ c ∈ cs, isCapital c = true) :
    capitals cs = cs := by
  induction cs with
  | nil => rfl
  | cons c cs ih =>
    have rest := ih fun d member => capital d (List.mem_cons_of_mem c member)
    unfold capitals at rest ⊢
    rw [List.flatMap_cons, capitalChar_of_isCapital (capital c (by simp)), rest]
    rfl

end Text

namespace Symbol

/-- The form in which symbols are kept. -/
structure Settled (s : String) : Prop where
  atLeast : 2 ≤ s.toList.length
  atMost : s.toList.length ≤ 10
  capital : ∀ c ∈ s.toList, Text.isCapital c = true

theorem settled_of_isAsset {cs : List Char} (asset : isAsset (Text.capitals cs) = true) :
    Settled (String.ofList (Text.capitals cs)) := by
  simp only [isAsset, Bool.and_eq_true, decide_eq_true_eq, List.all_eq_true] at asset
  obtain ⟨⟨atLeast, atMost⟩, inside⟩ := asset
  refine ⟨by simpa using atLeast, by simpa using atMost, ?_⟩
  intro c member
  rw [String.toList_ofList] at member
  exact Text.isCapital_of_capitals member (inside c member)

theorem settled_of_readAsset {field raw s : String} (read : readAsset field raw = .ok s) :
    Settled s := by
  unfold readAsset at read
  split at read
  · rename_i asset
    cases read
    exact settled_of_isAsset asset
  · cases read

theorem settled_of_readCurrency {field raw s : String} (read : readCurrency field raw = .ok s) :
    Settled s := by
  unfold readCurrency at read
  split at read
  · rename_i currency
    cases read
    exact settled_of_isAsset (isAsset_of_isCurrency currency)
  · cases read

theorem settled_of_readFor {kind : PairKind} {field raw s : String}
    (read : readFor kind field raw = .ok s) : Settled s := by
  cases kind with
  | fx => exact settled_of_readCurrency read
  | crypto => exact settled_of_readAsset read

theorem normalForm_of_settled {s : String} (settled : Settled s) : normalForm s = s.toList := by
  have visible : ∀ c ∈ s.toList, Text.isBlank c = false := fun c member =>
    Text.isBlank_of_isAlphanumeric (Text.isAlphanumeric_of_isCapital (settled.capital c member))
  rw [normalForm, Text.trimChars_of_visible visible, Text.capitals_of_capital settled.capital]

theorem isAsset_of_settled {s : String} (settled : Settled s) : isAsset s.toList = true := by
  simp only [isAsset, Bool.and_eq_true, decide_eq_true_eq, List.all_eq_true]
  exact ⟨⟨settled.atLeast, settled.atMost⟩, fun c member =>
    Text.isAlphanumeric_of_isCapital (settled.capital c member)⟩

theorem readAsset_of_settled (field : String) {s : String} (settled : Settled s) :
    readAsset field s = .ok s := by
  rw [readAsset, normalForm_of_settled settled, if_pos (isAsset_of_settled settled),
    String.ofList_toList]

theorem readAsset_of_readCurrency {field raw s : String} (read : readCurrency field raw = .ok s)
    (field' : String) : readAsset field' raw = .ok s := by
  unfold readCurrency at read
  split at read
  · rename_i currency
    cases read
    rw [readAsset, if_pos (isAsset_of_isCurrency currency)]
  · cases read

theorem readCurrency_again {field raw s : String} (read : readCurrency field raw = .ok s)
    (field' : String) : readCurrency field' s = .ok s := by
  have kept := normalForm_of_settled (settled_of_readCurrency read)
  unfold readCurrency at read ⊢
  split at read
  · rename_i currency
    cases read
    rw [String.toList_ofList] at kept
    rw [kept, if_pos currency]
  · cases read

end Symbol

namespace Expression

theorem settled_of_assetSymbol {word : List Char} {s : String} (read : assetSymbol word = .ok s) :
    Symbol.Settled s := by
  unfold assetSymbol at read
  dsimp only at read
  split at read
  · rename_i asset
    cases read
    exact Symbol.settled_of_isAsset asset
  · cases read

theorem settled_of_readTerm {ts us : List Token} {t : Term} (read : readTerm ts = .ok (t, us)) :
    ∀ s ∈ t.symbol?, Symbol.Settled s := by
  cases ts with
  | nil => cases read
  | cons token ts =>
    rw [readTerm] at read
    split at read
    · cases read
    · obtain ⟨value, _, read⟩ := ok_of_bind read
      cases ts with
      | nil =>
        cases read
        simp [Term.symbol?]
      | cons u us =>
        dsimp only at read
        split at read
        · obtain ⟨symbol, named, read⟩ := ok_of_bind read
          cases read
          intro s here
          cases here
          exact settled_of_assetSymbol named
        · cases read
          simp [Term.symbol?]

theorem settled_of_readTerms {fuel : Nat} {ts : List Token} {terms : List Term}
    {operators : List Operator} (read : readTerms fuel ts = .ok (terms, operators)) :
    ∀ t ∈ terms, ∀ s ∈ t.symbol?, Symbol.Settled s := by
  induction fuel generalizing ts terms operators with
  | zero => cases read
  | succ fuel ih =>
    rw [readTerms] at read
    obtain ⟨⟨term, rest⟩, first, read⟩ := ok_of_bind read
    cases rest with
    | nil =>
      cases read
      intro t member
      obtain rfl := List.mem_singleton.mp member
      exact settled_of_readTerm first
    | cons u more =>
      dsimp only at read
      split at read
      · cases read
      · obtain ⟨⟨terms', operators'⟩, rest, read⟩ := ok_of_bind read
        cases read
        intro t member
        rcases List.mem_cons.mp member with rfl | member
        · exact settled_of_readTerm first
        · exact ih rest t member

/-- The target was read as a currency, from the text or as the default. -/
theorem target_of_read {text default : String} {e : Expression}
    (found : read text default = .ok e) :
    ∃ field raw, Symbol.readCurrency field raw = .ok e.target := by
  obtain ⟨target, passes, told⟩ := passes_of_read found
  obtain ⟨ts, head, _, split, joined⟩ := passes.tokens
  rcases told with rfl | accepted
  · rcases target_of_split split with ⟨absurd, _⟩ | ⟨_, _, fiat, _, _, _, accepted, same⟩
    · cases absurd
    · cases same
      exact ⟨_, _, accepted⟩
  · exact ⟨_, _, accepted⟩

/-- All symbols of what was read have their one form, and so has the target. -/
theorem settled_of_read {text default : String} {e : Expression} (found : read text default = .ok e) :
    (∀ s ∈ e.symbols, Symbol.Settled s) ∧ Symbol.Settled e.target := by
  constructor
  · obtain ⟨target, passes, _⟩ := passes_of_read found
    obtain ⟨ts, head, _, _, joined⟩ := passes.tokens
    intro s named
    rw [symbols, mem_distinct, List.mem_filterMap] at named
    obtain ⟨t, member, here⟩ := named
    exact settled_of_readTerms joined t member s here
  · obtain ⟨field, raw, accepted⟩ := target_of_read found
    exact Symbol.settled_of_readCurrency accepted

end Expression
end QuoteDesk
