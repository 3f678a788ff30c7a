/-
Steps that may fail, taken one after the other. If all of them together gave a result,
each of them did; and if it is known of each step when it gives one, it is known of all.
-/
namespace QuoteDesk

variable {ε α β : Type}

theorem ok_of_bind {x : Except ε α} {f : α → Except ε β} {b : β} (done : x >>= f = .ok b) :
    ∃ a, x = .ok a ∧ f a = .ok b := by
  cases x with
  | error e => cases done
  | ok a => exact ⟨a, rfl, done⟩

theorem ok_of_map {x : Except ε α} {f : α → β} {b : β} (done : x.map f = .ok b) :
    ∃ a, x = .ok a ∧ f a = b := by
  cases x with
  | error e => cases done
  | ok a => exact ⟨a, rfl, Except.ok.inj done⟩

theorem ok_of_mapError {ε' : Type} {x : Except ε α} {f : ε → ε'} {a : α}
    (done : x.mapError f = .ok a) : x = .ok a := by
  cases x with
  | error e => cases done
  | ok b => exact congrArg _ (Except.ok.inj done)

theorem ok_of_toOption {x : Except ε α} {a : α} (done : x.toOption = some a) : x = .ok a := by
  cases x with
  | error e => cases done
  | ok b => exact congrArg _ (Option.some.inj done)

/-- What is left by steps from a start is that start, or what one of the steps gave. -/
theorem start_or_step {step : β → α → Except ε β} {given : β → Prop}
    (gives : ∀ {b a b'}, step b a = .ok b' → given b') {as : List α} {start result : β}
    (folded : as.foldlM step start = .ok result) : result = start ∨ given result := by
  induction as generalizing start with
  | nil =>
    cases folded
    exact .inl rfl
  | cons a as ih =>
    rw [List.foldlM_cons] at folded
    obtain ⟨next, stepped, folded⟩ := ok_of_bind folded
    rcases ih folded with rfl | told
    · exact .inr (gives stepped)
    · exact .inr told

/-! Steps that give a result on a condition -/

/-- A step gives the result exactly on the condition, and else one of some errors. -/
def HingesOn (condition : Prop) (errors : ε → Prop) (a : α) (x : Except ε α) : Prop :=
  (condition ∧ x = .ok a) ∨ (¬ condition ∧ ∃ e, errors e ∧ x = .error e)

namespace HingesOn

variable {condition further : Prop} {errors : ε → Prop} {a : α} {b : β} {x : Except ε α}

theorem congr (hinges : HingesOn condition errors a x) (same : condition ↔ further) :
    HingesOn further errors a x := by
  rwa [HingesOn, ← same]

theorem of_ok (done : x = .ok a) : HingesOn True errors a x := .inl ⟨trivial, done⟩

theorem bind {f : α → Except ε β} (hinges : HingesOn condition errors a x)
    (next : HingesOn further errors b (f a)) :
    HingesOn (condition ∧ further) errors b (x >>= f) := by
  rcases hinges with ⟨met, rfl⟩ | ⟨unmet, e, known, rfl⟩
  · rcases next with ⟨met', done⟩ | ⟨unmet', failed⟩
    · exact .inl ⟨⟨met, met'⟩, done⟩
    · exact .inr ⟨fun both => unmet' both.2, failed⟩
  · exact .inr ⟨fun both => unmet both.1, e, known, rfl⟩

theorem bind_pure {f : α → β} (hinges : HingesOn condition errors a x) :
    HingesOn condition errors (f a) (x >>= fun a => pure (f a)) :=
  (hinges.bind (f := fun a => pure (f a)) (of_ok rfl)).congr (and_iff_left trivial)

theorem mapM {conditions : α → Prop} {f : α → Except ε β} {g : α → β} {l : List α}
    (hinges : ∀ a ∈ l, HingesOn (conditions a) errors (g a) (f a)) :
    HingesOn (∀ a ∈ l, conditions a) errors (l.map g) (l.mapM f) := by
  induction l with
  | nil => exact .inl ⟨List.forall_mem_nil _, rfl⟩
  | cons a l ih =>
    have rest := ih fun a member => hinges a (List.mem_cons_of_mem _ member)
    rw [List.mapM_cons]
    refine ((hinges a List.mem_cons_self).bind rest.bind_pure).congr ?_
    exact List.forall_mem_cons.symm

theorem ok_iff (hinges : HingesOn condition errors a x) : (∃ a, x = .ok a) ↔ condition := by
  rcases hinges with ⟨met, rfl⟩ | ⟨unmet, e, _, rfl⟩
  · exact iff_of_true ⟨a, rfl⟩ met
  · exact iff_of_false (fun ⟨_, done⟩ => by cases done) unmet

theorem of_condition (hinges : HingesOn condition errors a x) (met : condition) : x = .ok a := by
  rcases hinges with ⟨_, done⟩ | ⟨unmet, _⟩
  · exact done
  · exact absurd met unmet

theorem of_result {a' : α} (hinges : HingesOn condition errors a x) (done : x = .ok a') :
    condition ∧ a' = a := by
  rcases hinges with ⟨met, told⟩ | ⟨_, e, _, told⟩
  · rw [told] at done
    exact ⟨met, (Except.ok.inj done).symm⟩
  · rw [told] at done
    cases done

theorem of_error {e : ε} (hinges : HingesOn condition errors a x) (failed : x = .error e) :
    errors e := by
  rcases hinges with ⟨_, told⟩ | ⟨_, e', known, told⟩
  · rw [told] at failed
    cases failed
  · rw [told] at failed
    cases failed
    exact known

end HingesOn

end QuoteDesk
