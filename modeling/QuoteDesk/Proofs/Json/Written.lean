import QuoteDesk.Json.Reader
import QuoteDesk.Json.Writer
import QuoteDesk.Proofs.Decimal.Written

/-
A JSON text that was written is read back, if it is made of records, texts, whole numbers of
64 bits and the three words. The fuel of reading is a matter of length: every step of it that
is taken for a character is paid for by that character.
-/
namespace QuoteDesk

namespace Table

variable {α : Type}

theorem set_of_new {t : Table α} {name : String} (new : name ∉ t.map Prod.fst) (v : α) :
    t.set name v = t ++ [(name, v)] := by
  induction t with
  | nil => rfl
  | cons m ms ih =>
    obtain ⟨n, w⟩ := m
    rw [List.map_cons, List.mem_cons, not_or] at new
    rw [set, if_neg (Ne.symm new.1), ih new.2, List.cons_append]

theorem ofMembers_of_nodup {members : List (String × α)} (nodup : (members.map Prod.fst).Nodup) :
    ofMembers members = members := by
  have step : ∀ (ms t : List (String × α)), ((t ++ ms).map Prod.fst).Nodup →
      ms.foldl (fun t m => set t m.1 m.2) t = t ++ ms := by
    intro ms
    induction ms with
    | nil => simp
    | cons m ms ih =>
      obtain ⟨n, w⟩ := m
      intro t nodup
      have new : n ∉ t.map Prod.fst := by
        rw [List.map_append, List.map_cons, List.nodup_append] at nodup
        intro absurd
        exact nodup.2.2 n absurd n (by simp) rfl
      rw [List.foldl_cons]
      dsimp only
      rw [set_of_new new, ih _ (by simpa using nodup), List.append_assoc, List.singleton_append]
  exact step members [] nodup

end Table

namespace Json

/-! Texts -/

theorem hexValue?_hexDigit : ∀ n < 16, hexValue? (hexDigit n) = some n := by decide

theorem readEscape_control {n : Nat} (low : n < 32) (rest : List Char) :
    readEscape ('0' :: '0' :: hexDigit (n / 16) :: hexDigit (n % 16) :: rest) =
      some (Char.ofNat n, rest) := by
  have zero : hexValue? '0' = some 0 := rfl
  have high := hexValue?_hexDigit (n / 16) (by omega)
  have last := hexValue?_hexDigit (n % 16) (Nat.mod_lt n (by decide))
  have value : 4096 * 0 + 256 * 0 + 16 * (n / 16) + n % 16 = n := by omega
  have single : (0xd800 ≤ n && n < 0xdc00) = false := by
    simp only [Bool.and_eq_false_imp, decide_eq_true_eq, decide_eq_false_iff_not]
    omega
  have single' : (0xdc00 ≤ n && n < 0xe000) = false := by
    simp only [Bool.and_eq_false_imp, decide_eq_true_eq, decide_eq_false_iff_not]
    omega
  simp only [readEscape, readUnit, zero, high, last, value, single, single', Option.bind_eq_bind,
    Option.bind_some, Bool.false_eq_true, ↓reduceIte]

theorem readString_escape (fuel : Nat) (done : List Char) (c : Char) (rest : List Char) :
    readString (fuel + 1) done (escape c ++ rest) = readString fuel (c :: done) rest := by
  unfold escape
  split
  · rfl
  · rfl
  · rfl
  · rfl
  · rfl
  · rfl
  · rfl
  · rename_i quote backslash _ _ _ _ _
    split
    · rename_i control
      have unescaped := readEscape_control control rest
      rw [Char.ofNat_toNat] at unescaped
      simp [readString, unescaped]
    · rename_i visible
      have low : ¬ c.toNat < 0x20 := visible
      simp only [List.cons_append, List.nil_append, readString, low, ↓reduceIte]
      rw [if_neg (fun same => quote same), if_neg (fun same => backslash same)]

theorem length_escape_pos (c : Char) : 0 < (escape c).length := by
  unfold escape
  split
  all_goals first
    | exact Nat.succ_pos _
    | split <;> exact Nat.succ_pos _

theorem length_le_flatMap (cs : List Char) : cs.length ≤ (cs.flatMap escape).length := by
  induction cs with
  | nil => exact Nat.le_refl 0
  | cons c cs ih =>
    have some := length_escape_pos c
    rw [List.flatMap_cons, List.length_append, List.length_cons]
    omega

theorem readString_escaped {fuel : Nat} (cs : List Char) (enough : cs.length < fuel)
    (done rest : List Char) :
    readString fuel done (cs.flatMap escape ++ '"' :: rest) =
      some (String.ofList (done.reverse ++ cs), rest) := by
  induction cs generalizing fuel done with
  | nil =>
    obtain ⟨fuel, rfl⟩ := Nat.exists_eq_add_of_lt enough
    simp [readString]
  | cons c cs ih =>
    obtain ⟨fuel, rfl⟩ : ∃ k, fuel = k + 1 := ⟨fuel - 1, by omega⟩
    rw [List.flatMap_cons, List.append_assoc, readString_escape,
      ih (by simpa using enough) (c :: done), List.reverse_cons, List.append_assoc,
      List.singleton_append]

/-- A written text is read back by as much fuel as it has characters. -/
theorem readString_writeString (fuel : Nat) (s : String) (enough : (writeString s).length ≤ fuel + 1)
    (rest : List Char) :
    ∃ more, writeString s ++ rest = '"' :: more ∧ readString fuel [] more = some (s, rest) := by
  have length := length_le_flatMap s.toList
  refine ⟨s.toList.flatMap escape ++ '"' :: rest, by simp [writeString], ?_⟩
  rw [readString_escaped s.toList _ [] rest, List.reverse_nil, List.nil_append, String.ofList_toList]
  simp only [writeString, List.cons_append, List.length_cons, List.length_append,
    List.length_nil] at enough
  omega

/-! Whole numbers -/

/-- What follows a number cannot be taken for more of it. -/
def EndsNumber (cs : List Char) : Prop :=
  Text.Stops (fun c => Text.isDigit c || c == '.' || c == 'e' || c == 'E') cs

/-- The integers of 64 bits, with or without sign. -/
def InRange (i : Int) : Prop := -9223372036854775808 ≤ i ∧ i ≤ 18446744073709551615

theorem ofInteger_write {i : Int} (small : InRange i) :
    ofInteger (i < 0) (Digits.write i.natAbs) = some (.int i) := by
  have value : (if decide (i < 0) = true then -(i.natAbs : Int) else i.natAbs) = i := by
    simp only [decide_eq_true_eq]
    split <;> omega
  have range : (-9223372036854775808 ≤ i && i ≤ 18446744073709551615) = true := by
    simp only [Bool.and_eq_true, decide_eq_true_eq]
    exact small
  simp only [ofInteger, Digits.readNat_write, value, range, ↓reduceIte]

theorem readNumber_writeInt {i : Int} (small : InRange i) {rest : List Char}
    (ends : EndsNumber rest) :
    readNumber (Decimal.writeInt i ++ rest) = some (.int i, rest) := by
  have digits := Digits.isDigit_write i.natAbs
  have stops : Text.Stops Text.isDigit rest :=
    Text.stops_mono (fun c digit => by rw [digit]; rfl) ends
  have whole := Text.takeWhile_run digits stops
  have left := Text.dropWhile_run digits stops
  have filled := Digits.write_ne_nil i.natAbs
  have plain : ¬ ((Digits.write i.natAbs).head? = some '0' ∧ (Digits.write i.natAbs).length ≠ 1) := by
    rintro ⟨zero, long⟩
    obtain ⟨ds, same⟩ := List.head?_eq_some_iff.mp zero
    rw [same, Digits.write_of_zero same] at long
    exact long rfl
  have pointless : ∀ more, rest ≠ '.' :: more := by
    intro more same
    cases ends '.' more same
  have powerless : ∀ more, rest ≠ 'e' :: more := by
    intro more same
    cases ends 'e' more same
  have powerless' : ∀ more, rest ≠ 'E' :: more := by
    intro more same
    cases ends 'E' more same
  rcases Int.lt_or_le i 0 with below | above
  · have text : Decimal.writeInt i ++ rest = '-' :: (Digits.write i.natAbs ++ rest) := by
      simp [Decimal.writeInt, Decimal.signText, below]
    have value := ofInteger_write small
    rw [decide_eq_true below] at value
    rw [text]
    simp only [readNumber, whole, left, filled, plain, or_self, ↓reduceIte, value, Bool.false_eq_true,
      Option.map_some]
  · have text : Decimal.writeInt i ++ rest = Digits.write i.natAbs ++ rest := by
      simp [Decimal.writeInt, Decimal.signText, Int.not_lt.mpr above]
    have unsigned : ∀ more, Digits.write i.natAbs ++ rest ≠ '-' :: more := by
      obtain ⟨d, ds, same⟩ := List.exists_cons_of_ne_nil filled
      rintro more absurd
      rw [same] at absurd digits
      cases absurd
      cases digits '-' (by simp)
    have value := ofInteger_write small
    rw [decide_eq_false (Int.not_lt.mpr above)] at value
    rw [text]
    simp only [readNumber, whole, left, filled, plain, or_self, ↓reduceIte, value, Bool.false_eq_true,
      Option.map_some]

/-! Values -/

mutual

/-- The values that come back as they were written: no name is given twice in a record. -/
def Plain : Json → Prop
  | .null | .bool _ | .text _ => True
  | .int i => InRange i
  | .object members => (members.map Prod.fst).Nodup ∧ PlainMembers members
  | .real _ | .list _ => False

def PlainMembers : List (String × Json) → Prop
  | [] => True
  | (_, v) :: ms => Plain v ∧ PlainMembers ms

end

mutual

/-- How many records stand inside one another. -/
def depth : Json → Nat
  | .object members => depthMembers members + 1
  | _ => 0

def depthMembers : List (String × Json) → Nat
  | [] => 0
  | (_, v) :: ms => max (depth v) (depthMembers ms)

end

theorem readValue_number {c : Char} (opens : Text.isDigit c = true ∨ c = '-') (fuel room : Nat)
    (cs : List Char) : readValue (fuel + 1) room (c :: cs) = readNumber (c :: cs) := by
  have other : ∀ d, Text.isDigit d = false → d ≠ '-' → c ≠ d := by
    rintro d outside unsigned rfl
    rcases opens with digit | sign
    · rw [outside] at digit
      cases digit
    · exact unsigned sign
  have n := other 'n' (by decide) (by decide)
  have t := other 't' (by decide) (by decide)
  have f := other 'f' (by decide) (by decide)
  have quote := other '"' (by decide) (by decide)
  have bracket := other '[' (by decide) (by decide)
  have brace := other '\x7b' (by decide) (by decide)
  unfold readValue
  split
  all_goals first
    | rfl
    | rename_i same; cases same; contradiction

theorem opens_writeInt (i : Int) :
    ∃ c cs, Decimal.writeInt i = c :: cs ∧ (Text.isDigit c = true ∨ c = '-') := by
  unfold Decimal.writeInt Decimal.signText
  split
  · exact ⟨'-', _, rfl, .inr rfl⟩
  · obtain ⟨d, ds, same⟩ := List.exists_cons_of_ne_nil (Digits.write_ne_nil i.natAbs)
    have member : d ∈ Digits.write i.natAbs := by simp [same]
    exact ⟨d, ds, same, .inl (Digits.isDigit_write _ d member)⟩

theorem afterWord_append (word rest : List Char) (v : Json) :
    afterWord word v (word ++ rest) = some (v, rest) := by
  simp [afterWord]

/-- No written value begins with a blank or a closing brace. -/
theorem opens_writeChars {v : Json} (plain : Plain v) :
    ∃ c cs, writeChars v = c :: cs ∧ isSpace c = false ∧ c ≠ '\x7d' := by
  cases v with
  | null => exact ⟨'n', _, rfl, rfl, by decide⟩
  | bool b =>
    cases b with
    | true => exact ⟨'t', _, rfl, rfl, by decide⟩
    | false => exact ⟨'f', _, rfl, rfl, by decide⟩
  | text s => exact ⟨'"', _, rfl, rfl, by decide⟩
  | object ms => exact ⟨'\x7b', _, rfl, rfl, by decide⟩
  | int i =>
    obtain ⟨c, cs, same, digit | rfl⟩ := opens_writeInt i
    · refine ⟨c, cs, same, ?_, ?_⟩
      · cases blank : isSpace c with
        | false => rfl
        | true =>
          simp only [isSpace, Bool.or_eq_true, beq_iff_eq] at blank
          rcases blank with ((rfl | rfl) | rfl) | rfl <;> cases digit
      · rintro rfl
        cases digit
    · exact ⟨'-', cs, same, rfl, by decide⟩
  | real _ | list _ => cases plain

theorem skipSpace_of_opens {c : Char} (visible : isSpace c = false) (cs : List Char) :
    skipSpace (c :: cs) = c :: cs := by
  rw [skipSpace, List.dropWhile_cons, visible]
  rfl

theorem skipSpace_writeChars {v : Json} (plain : Plain v) (rest : List Char) :
    skipSpace (writeChars v ++ rest) = writeChars v ++ rest := by
  obtain ⟨c, cs, same, visible, _⟩ := opens_writeChars plain
  rw [same, List.cons_append, skipSpace_of_opens visible]

theorem endsNumber_comma (rest : List Char) : EndsNumber (',' :: rest) :=
  Text.stops_cons (by decide) rest

theorem endsNumber_brace (rest : List Char) : EndsNumber ('\x7d' :: rest) :=
  Text.stops_cons (by decide) rest

theorem opens_writeMembers (name : String) (v : Json) (ms : List (String × Json)) (rest : List Char) :
    ∃ more, writeMembers ((name, v) :: ms) ++ rest = '"' :: more := by
  cases ms with
  | nil => exact ⟨_, rfl⟩
  | cons m ms => exact ⟨_, rfl⟩

section Members

variable {fuel room : Nat} {done : List (String × Json)} {rest : List Char} {name : String} {v : Json}

theorem readMembers_more (plain : Plain v) (enough : (writeString name).length ≤ fuel)
    (value : readValue fuel room (writeChars v ++ ',' :: rest) = some (v, ',' :: rest)) :
    readMembers (fuel + 1) room done (writeString name ++ ':' :: (writeChars v ++ ',' :: rest)) =
      readMembers fuel room ((name, v) :: done) rest := by
  obtain ⟨more, text, read⟩ := readString_writeString fuel name (by omega)
    (':' :: (writeChars v ++ ',' :: rest))
  rw [text, readMembers, skipSpace_of_opens rfl]
  simp only [read, Option.bind_eq_bind, Option.bind_some, skipSpace_of_opens (c := ':') rfl,
    skipSpace_writeChars plain, value, skipSpace_of_opens (c := ',') rfl]

theorem readMembers_last (plain : Plain v) (enough : (writeString name).length ≤ fuel)
    (value : readValue fuel room (writeChars v ++ '\x7d' :: rest) = some (v, '\x7d' :: rest)) :
    readMembers (fuel + 1) room done (writeString name ++ ':' :: (writeChars v ++ '\x7d' :: rest)) =
      some (done.reverse ++ [(name, v)], rest) := by
  obtain ⟨more, text, read⟩ := readString_writeString fuel name (by omega)
    (':' :: (writeChars v ++ '\x7d' :: rest))
  rw [text, readMembers, skipSpace_of_opens rfl]
  simp only [read, Option.bind_eq_bind, Option.bind_some, skipSpace_of_opens (c := ':') rfl,
    skipSpace_writeChars plain, value, skipSpace_of_opens (c := '\x7d') rfl, List.reverse_cons]

end Members

mutual

theorem readValue_writeChars (fuel room : Nat) (rest : List Char) : (v : Json) → Plain v →
    (writeChars v).length ≤ fuel → depth v ≤ room → EndsNumber rest →
    readValue fuel room (writeChars v ++ rest) = some (v, rest)
  | .null, _, enough, _, _ => by
    obtain ⟨fuel, rfl⟩ := Nat.exists_eq_add_of_le' (Nat.le_trans (by decide : 1 ≤ 4) enough)
    exact afterWord_append "null".toList rest .null
  | .bool true, _, enough, _, _ => by
    obtain ⟨fuel, rfl⟩ := Nat.exists_eq_add_of_le' (Nat.le_trans (by decide : 1 ≤ 4) enough)
    exact afterWord_append "true".toList rest (.bool true)
  | .bool false, _, enough, _, _ => by
    obtain ⟨fuel, rfl⟩ := Nat.exists_eq_add_of_le' (Nat.le_trans (by decide : 1 ≤ 5) enough)
    exact afterWord_append "false".toList rest (.bool false)
  | .int i, small, enough, _, ends => by
    obtain ⟨c, cs, same, opens⟩ := opens_writeInt i
    rw [writeChars] at enough ⊢
    rw [same] at enough
    obtain ⟨fuel, rfl⟩ := Nat.exists_eq_add_of_le' (Nat.le_trans (Nat.succ_pos cs.length) enough)
    rw [same, List.cons_append, readValue_number opens, ← List.cons_append, ← same,
      readNumber_writeInt small ends]
  | .text s, _, enough, _, _ => by
    rw [writeChars] at enough ⊢
    obtain ⟨fuel, rfl⟩ := Nat.exists_eq_add_of_le' (Nat.le_trans (Nat.succ_pos _) enough)
    obtain ⟨more, text, read⟩ := readString_writeString fuel s enough rest
    rw [text, readValue, read]
    rfl
  | .object [], _, enough, deep, _ => by
    obtain ⟨fuel, rfl⟩ := Nat.exists_eq_add_of_le' (Nat.le_trans (by decide : 1 ≤ 2) enough)
    obtain ⟨room, rfl⟩ := Nat.exists_eq_add_of_le' (Nat.le_trans (Nat.succ_pos _) deep)
    rfl
  | .object ((name, v) :: ms), plain, enough, deep, _ => by
    simp only [writeChars, List.cons_append, List.length_cons, List.length_append, List.length_nil] at enough
    obtain ⟨fuel, rfl⟩ := Nat.exists_eq_add_of_le' (Nat.le_trans (Nat.succ_pos _) enough)
    obtain ⟨room, rfl⟩ := Nat.exists_eq_add_of_le' (Nat.le_trans (Nat.succ_pos _) deep)
    -- the two braces pay for this step and for the end of the members
    have members := readMembers_writeMembers fuel room [] rest name v ms plain.2 (by omega)
      (Nat.le_of_succ_le_succ deep)
    obtain ⟨more, text⟩ := opens_writeMembers name v ms ('\x7d' :: rest)
    have whole : writeChars (.object ((name, v) :: ms)) ++ rest = '\x7b' :: '"' :: more := by
      rw [← text]
      simp [writeChars]
    rw [text] at members
    rw [whole, readValue]
    simp only [skipSpace_of_opens (c := '"') rfl]
    change Option.map (fun x => (object (Table.ofMembers x.1), x.2)) (readMembers fuel room [] _) = _
    rw [members, Option.map_some, List.reverse_nil, List.nil_append, Table.ofMembers_of_nodup plain.1]

theorem readMembers_writeMembers (fuel room : Nat) (done : List (String × Json)) (rest : List Char)
    (name : String) (v : Json) : (ms : List (String × Json)) →
    PlainMembers ((name, v) :: ms) → (writeMembers ((name, v) :: ms)).length < fuel →
    depthMembers ((name, v) :: ms) ≤ room →
    readMembers fuel room done (writeMembers ((name, v) :: ms) ++ '\x7d' :: rest) =
      some (done.reverse ++ (name, v) :: ms, rest)
  | [], plain, enough, deep => by
    obtain ⟨fuel, rfl⟩ := Nat.exists_eq_add_of_le' (Nat.le_trans (Nat.succ_pos _) enough)
    simp only [writeMembers, List.length_append, List.length_cons] at enough
    have value := readValue_writeChars fuel room _ v plain.1 (by omega)
      (Nat.le_trans (Nat.le_max_left _ _) deep) (endsNumber_brace rest)
    rw [writeMembers, List.append_assoc, List.cons_append, readMembers_last plain.1 (by omega) value]
  | (name', v') :: ms, plain, enough, deep => by
    obtain ⟨fuel, rfl⟩ := Nat.exists_eq_add_of_le' (Nat.le_trans (Nat.succ_pos _) enough)
    simp only [writeMembers, List.length_append, List.length_cons] at enough
    have value := readValue_writeChars fuel room _ v plain.1 (by omega)
      (Nat.le_trans (Nat.le_max_left _ _) deep)
      (endsNumber_comma (writeMembers ((name', v') :: ms) ++ '\x7d' :: rest))
    have members := readMembers_writeMembers fuel room ((name, v) :: done) rest name' v' ms plain.2
      (by omega) (Nat.le_trans (Nat.le_max_right _ _) deep)
    rw [List.reverse_cons, List.append_assoc, List.singleton_append] at members
    rw [← members, ← readMembers_more plain.1 (by omega) value]
    simp [writeMembers]

end

/-- A written value is read back. -/
theorem read_write {v : Json} (plain : Plain v) (shallow : depth v ≤ deepest) :
    read (write v) = some v := by
  have value := readValue_writeChars (2 * (writeChars v).length + 2) deepest [] v plain (by omega)
    shallow (Text.stops_nil _)
  have start := skipSpace_writeChars plain []
  rw [List.append_nil] at value start
  rw [read, write, String.toList_ofList, readChars, start, value]
  rfl

end Json
end QuoteDesk
