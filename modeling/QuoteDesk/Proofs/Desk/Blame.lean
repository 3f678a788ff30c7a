import QuoteDesk.Program
import QuoteDesk.Proofs.Cache.Passage
import QuoteDesk.Proofs.Provider.Outcome

/-
Who has to mend a failure. What goes wrong with sources, bodies of responses, stores and
arithmetic is never put down to the user: this holds of each step, and of steps taken
one after the other if it holds of each of them.
-/
namespace QuoteDesk

/-- No failure of it is the user's to mend. -/
def Outcome.SparesUser {α : Type} (o : Outcome α) : Prop := ∀ f, o = .error f → f.isUser = false

section Steps

variable {α β : Type}

theorem spares_ok (a : α) : Outcome.SparesUser (.ok a) := by
  intro f absurd
  cases absurd

theorem spares_error {f : Failure} (blame : f.isUser = false) :
    Outcome.SparesUser (.error f : Outcome α) := by
  rintro _ ⟨⟩
  exact blame

theorem spares_defect (d : Defect) : Outcome.SparesUser (.error (.defect d) : Outcome α) :=
  spares_error rfl

theorem spares_rejected (cause : ProviderCause) :
    Outcome.SparesUser (Payload.rejected cause : Outcome α) :=
  spares_error rfl

theorem spares_bind {o : Outcome α} {next : α → Outcome β} (first : Outcome.SparesUser o)
    (more : ∀ a, o = .ok a → Outcome.SparesUser (next a)) : Outcome.SparesUser (o >>= next) := by
  cases o with
  | error f => exact spares_error (first f rfl)
  | ok a => exact more a rfl

theorem spares_map {o : Outcome α} (g : α → β) (spared : Outcome.SparesUser o) :
    Outcome.SparesUser (o.map g) := by
  cases o with
  | error f => exact spares_error (spared f rfl)
  | ok a => exact spares_ok (g a)

theorem spares_ofArithmetic (r : Except Decimal.Signal α) :
    Outcome.SparesUser (Outcome.ofArithmetic r) := by
  cases r with
  | error s => exact spares_defect _
  | ok a => exact spares_ok a

theorem spares_foldlM (step : β → α → Outcome β) {l : List α}
    (each : ∀ b, ∀ a ∈ l, Outcome.SparesUser (step b a)) (start : β) :
    Outcome.SparesUser (l.foldlM step start) := by
  induction l generalizing start with
  | nil => exact spares_ok start
  | cons a l ih =>
    rw [List.foldlM_cons]
    exact spares_bind (each start a (by simp)) fun b _ =>
      ih (fun b' a' member => each b' a' (List.mem_cons_of_mem a member)) b

theorem spares_mapM (step : α → Outcome β) (each : ∀ a, Outcome.SparesUser (step a))
    (l : List α) : Outcome.SparesUser (l.mapM step) := by
  induction l with
  | nil => exact spares_ok []
  | cons a l ih =>
    rw [List.mapM_cons]
    exact spares_bind (each a) fun b _ => spares_bind ih fun bs _ => spares_ok (b :: bs)

end Steps

/-! Bodies of responses -/

namespace Payload

theorem spares_checkStatus (status : Int) (body : String) :
    Outcome.SparesUser (checkStatus status body) := by
  unfold checkStatus
  split
  · exact spares_ok ()
  · exact spares_rejected _

theorem spares_document (body : String) : Outcome.SparesUser (document body) := by
  unfold document
  split
  · exact spares_ok _
  · exact spares_rejected _

theorem spares_nestedPayload (outer inner : String) (number? : Json → Option Decimal) (missing : String)
    (invalid : Json → String) (status : Int) (body : String) :
    Outcome.SparesUser (nestedPayload outer inner number? missing invalid status body) := by
  refine spares_bind (spares_checkStatus status body) fun _ _ => ?_
  refine spares_bind (spares_document body) fun v _ => ?_
  split
  · exact spares_rejected _
  · split
    · exact spares_ok _
    · exact spares_rejected _

theorem spares_firstOf (v : Json) : Outcome.SparesUser (firstOf v) := by
  unfold firstOf
  split
  · exact spares_ok _
  · exact spares_defect _
  · split
    · exact spares_ok _
    · exact spares_defect _
  · exact spares_defect _
  · exact spares_defect _

theorem spares_tickerError (v : Json) : Outcome.SparesUser (tickerError v) := by
  unfold tickerError
  split
  · exact spares_ok ()
  · split
    · exact spares_ok ()
    · refine spares_bind (spares_firstOf _) fun text _ => ?_
      dsimp only
      split
      · exact spares_rejected _
      · exact spares_rejected _

theorem spares_tickerPayload (status : Int) (body : String) :
    Outcome.SparesUser (tickerPayload status body) := by
  refine spares_bind (spares_checkStatus status body) fun _ _ => ?_
  refine spares_bind (spares_document body) fun v _ => ?_
  split
  · refine spares_bind (spares_tickerError _) fun _ _ => ?_
    split
    · split
      · exact spares_rejected _
      · split
        · exact spares_rejected _
        · refine spares_bind (spares_firstOf _) fun w _ => ?_
          split
          · exact spares_ok _
          · exact spares_rejected _
    · exact spares_rejected _
  · exact spares_rejected _

end Payload

/-! Sources and chains of them -/

theorem Source.spares_decode (s : Source) (quote : String) (status : Int) (body : String) :
    Outcome.SparesUser (s.decode quote status body) := by
  cases s with
  | frankfurter => exact Payload.spares_nestedPayload _ _ _ _ _ status body
  | coinbase => exact Payload.spares_nestedPayload _ _ _ _ _ status body
  | kraken => exact Payload.spares_tickerPayload status body

theorem Source.spares_attempt {ω : Type} [Wire ω] (s : Source) (base quote : String) (l : Line ω) :
    Outcome.SparesUser (s.attempt base quote l).1.outcome := by
  unfold attempt
  split
  · exact spares_error rfl
  · split
    · unfold attemptOf
      dsimp only
      split
      · exact spares_map _ (s.spares_decode quote _ _)
      · exact spares_error rfl
      · exact spares_error rfl
      · exact spares_defect _
    · exact spares_error rfl

namespace Provider

variable {ω : Type}

/-- None of its attempts fails through the user. -/
def SparesUser (p : Provider ω) : Prop :=
  ∀ base quote w, Outcome.SparesUser (p.attempt base quote w).1.outcome

theorem spares_fetchQuote {p : Provider ω} (spares : p.SparesUser) (policy : RetryPolicy)
    (now : Moment) (base quote : String) (w : ω) :
    Outcome.SparesUser (p.fetchQuote policy now base quote w).1 := by
  have tried : Outcome.SparesUser
      (Retry.run policy (p.attemptCounted base quote) (p.counters, w)).1 :=
    Retry.outcome_run policy (fun s => spares base quote s.2) (fun _ => spares_defect _) _
  unfold fetchQuote
  generalize Retry.run policy (p.attemptCounted base quote) (p.counters, w) = r at tried
  obtain ⟨o, waits, c, w'⟩ := r
  cases o with
  | ok price =>
    cases price with
    | finite d => exact spares_ok _
    | infinite => exact spares_defect _
    | nan => exact spares_defect _
  | error f =>
    have blame := tried f rfl
    refine spares_error ?_
    unfold Failure.tagged
    split
    · rfl
    · exact blame

end Provider

theorem Chain.spares_searchFrom {ω : Type} (policy : RetryPolicy) (now : Moment) (pair : Pair)
    {providers : List (Provider ω)} (each : ∀ p ∈ providers, p.SparesUser) (trace : List String)
    (w : ω) : Outcome.SparesUser (searchFrom policy now pair trace providers w).outcome := by
  apply outcome_searchFrom
  · intro trace
    exact spares_error rfl
  · intro p member w
    exact Provider.spares_fetchQuote (each p member) policy now pair.base pair.quote w

/-! The cache -/

/-- Stores that never put a refusal down to the user. -/
class Store.Blameless (σ : Type) [Store σ] : Prop where
  read : ∀ (s : σ) (now : Moment) (key : String), Outcome.SparesUser (Store.read s now key)
  write : ∀ (s : σ) (e : Entry), Outcome.SparesUser (Store.write s e).1

instance : Store.Blameless Memory where
  read _ _ _ := spares_ok _
  write _ _ := spares_ok ()

namespace Shelf

theorem spares_find (directory : String) (s : Shelf) (key : String) :
    Outcome.SparesUser (s.find directory key) := by
  unfold find
  split
  · exact spares_defect _
  · split
    · exact spares_ok _
    · exact spares_error rfl
    · split
      · split
        · exact spares_error rfl
        · exact spares_ok _
      · split
        · exact spares_error rfl
        · exact spares_ok _

theorem spares_read (directory : String) (s : Shelf) (now : Moment) (key : String) :
    Outcome.SparesUser (s.read directory now key) := by
  refine spares_bind (s.spares_find directory key) fun node _ => ?_
  split
  · exact spares_ok _
  · exact spares_error rfl
  · exact spares_ok _

theorem spares_writeUnless (directory : String) (refused : Option WriteStep) (s : Shelf)
    (e : Entry) : Outcome.SparesUser (s.writeUnless directory refused e).1 := by
  unfold writeUnless
  split
  · rename_i f untold
    unfold Entry.text at untold
    split at untold
    · cases untold
    · cases untold
      exact spares_defect _
  · split
    · exact spares_error rfl
    · split
      · exact spares_error rfl
      · split
        · exact spares_defect _
        · split
          · exact spares_ok ()
          · exact spares_error rfl

end Shelf

instance : Store.Blameless Files where
  read f now key := f.shelf.spares_read f.directory now key
  write f e := f.shelf.spares_writeUnless f.directory none e

/-- A lookup fails through the user only if its fetch does. -/
theorem Cache.Passage.spares {σ : Type} [Store σ] [Store.Blameless σ] {c c' : Cache σ} {now : Moment}
    {key : String} {ttl : Int} {fetched : Outcome Quote} {answer : Outcome CachedQuote} {made : Bool}
    (passage : c.Passage now key ttl fetched answer made c') (spared : fetched.SparesUser) :
    answer.SparesUser := by
  cases passage with
  | unreadable read =>
    have blame := Store.Blameless.read c.store now key
    rw [read] at blame
    exact spares_error (blame _ rfl)
  | ageless | aborted | unrecorded => exact spares_defect _
  | fresh | kept | fellBack => exact spares_ok _
  | @refused entry q f s read unserved outcome write =>
    have blame := Store.Blameless.write c.store (keptEntry key ttl q)
    rw [write] at blame
    exact spares_error (blame f rfl)
  | failed read bare outcome => exact spares_error (spared _ outcome)

end QuoteDesk
