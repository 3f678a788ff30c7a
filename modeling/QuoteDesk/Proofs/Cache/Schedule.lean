import QuoteDesk.Proofs.Cache.Serializability

/-
The runnable order of lookups side by side: whoever may enter does so at once, else the
fetch that is due first ends. It is one of the orders that the turns allow, and it goes
on until every lookup has its answer.
-/
namespace QuoteDesk

/-- How often a lookup still has to move: it enters and it leaves. -/
def Phase.work : Phase → Nat
  | .waiting => 2
  | .fetching _ _ _ => 1
  | _ => 0

theorem Phase.work_pos {p : Phase} (isOpen : p.isOpen = true) : 0 < p.work := by
  cases p with
  | waiting => exact Nat.zero_lt_two
  | fetching => exact Nat.zero_lt_one
  | done | cancelled => cases isOpen

theorem Phase.work_of_begun {p : Phase} (begun : p.hasBegun = true) : p.work ≤ 1 := by
  cases p with
  | waiting | cancelled => cases begun
  | fetching => exact Nat.le_refl 1
  | done => exact Nat.zero_le 1

namespace Crew

def work (ts : List Task) : Nat := (ts.map (·.phase.work)).sum

theorem work_split (before after : List Task) (t : Task) :
    work (before ++ t :: after) = work before + t.phase.work + work after := by
  simp only [work, List.map_append, List.map_cons, List.sum_append, List.sum_cons]
  omega

/-! Whose move it is -/

/-- It is the turn of lookup `i` while some keys are held by others in front. -/
def TurnBehind (held : List String) (ts : List Task) (i : Nat) : Prop :=
  ∃ before call after, ts = before ++ ⟨call, .waiting⟩ :: after ∧ before.length = i ∧
    call.key ∉ held ∧ ∀ t ∈ before, t.call.key = call.key → t.phase.isOpen = false

theorem turnBehind_of_next {held : List String} {ts : List Task} {i : Nat}
    (next : nextToEnter held ts = some i) : TurnBehind held ts i := by
  induction ts generalizing held i with
  | nil => cases next
  | cons t ts ih =>
    obtain ⟨call, phase⟩ := t
    unfold nextToEnter at next
    split at next
    · rename_i free
      cases next
      cases phase with
      | waiting => exact ⟨[], call, ts, rfl, rfl, by simpa [Phase.isWaiting] using free, by simp⟩
      | fetching | done | cancelled => cases free
    · obtain ⟨j, later, rfl⟩ := Option.map_eq_some_iff.mp next
      obtain ⟨before, call', after, rfl, rfl, free, closed⟩ := ih later
      refine ⟨⟨call, phase⟩ :: before, call', after, rfl, rfl, ?_, ?_⟩
      · intro absurd
        apply free
        split
        · exact List.mem_cons_of_mem _ absurd
        · exact absurd
      · intro u member same
        rcases List.mem_cons.mp member with rfl | member
        · cases isOpen : phase.isOpen with
          | false => rfl
          | true =>
            dsimp only at same
            simp [isOpen, same] at free
        · exact closed u member same

theorem next_of_turnBehind {held : List String} {before after : List Task} {call : Call}
    (free : call.key ∉ held)
    (closed : ∀ t ∈ before, t.call.key = call.key → t.phase.isOpen = false) :
    (nextToEnter held (before ++ ⟨call, .waiting⟩ :: after)).isSome := by
  induction before generalizing held with
  | nil => simp [nextToEnter, Phase.isWaiting, free]
  | cons t before ih =>
    rw [List.cons_append, nextToEnter]
    split
    · rfl
    · rw [Option.isSome_map]
      refine ih ?_ fun u member => closed u (List.mem_cons_of_mem t member)
      intro absurd
      split at absurd
      · rename_i isOpen
        rcases List.mem_cons.mp absurd with same | inside
        · rw [closed t (by simp) same.symm] at isOpen
          cases isOpen
        · exact free inside
      · exact free absurd

theorem fetching_of_next {ts : List Task} {i due : Nat} (next : nextToFinish ts = some (i, due)) :
    ∃ call since entry, ts[i]? = some ⟨call, .fetching since entry due⟩ := by
  induction ts generalizing i due with
  | nil => cases next
  | cons t ts ih =>
    obtain ⟨call, phase⟩ := t
    have behind : (nextToFinish ts).map (Prod.map (· + 1) id) = some (i, due) →
        ∃ call' since entry, (⟨call, phase⟩ :: ts : List Task)[i]? =
          some ⟨call', .fetching since entry due⟩ := by
      intro shifted
      obtain ⟨⟨j, due'⟩, later, same⟩ := Option.map_eq_some_iff.mp shifted
      cases same
      exact ih later
    unfold nextToFinish at next
    dsimp only at next
    split at next
    · rename_i since entry due' j due'' later
      split at next
      · cases next
        exact ⟨call, since, entry, rfl⟩
      · exact behind (later.trans next)
    · cases next
      exact ⟨call, _, _, rfl⟩
    · exact behind next

theorem next_of_fetching {ts : List Task} {t : Task} (member : t ∈ ts)
    (running : t.phase.isFetching = true) : (nextToFinish ts).isSome := by
  induction ts with
  | nil => cases member
  | cons u ts ih =>
    unfold nextToFinish
    dsimp only
    split
    · split <;> rfl
    · rfl
    · rename_i behind last
      rcases List.mem_cons.mp member with rfl | member
      · cases phase : t.phase <;> rw [phase] at running <;> cases running
        cases later : (nextToFinish ts).map fun x => (x.1 + 1, x.2) with
        | none => exact absurd later (last _ _ _ phase)
        | some r => exact absurd later (behind _ _ _ r.1 r.2 phase)
      · rw [Option.isSome_map]
        exact ih member

/-- When nobody may move, everybody has ended. -/
theorem closed_of_idle {ts : List Task} (enter : nextToEnter [] ts = none)
    (finish : nextToFinish ts = none) : ∀ t ∈ ts, t.phase.isOpen = false := by
  intro t member
  cases isOpen : t.phase.isOpen with
  | false => rfl
  | true =>
    obtain ⟨j, u, there, _, running | turn⟩ := exists_turn member rfl isOpen
    · have next := next_of_fetching (List.mem_of_getElem? there) running
      rw [finish] at next
      cases next
    · obtain ⟨before, call, after, rfl, _, closed⟩ := turn
      have next : (nextToEnter [] (before ++ ⟨call, .waiting⟩ :: after)).isSome :=
        next_of_turnBehind (by simp) closed
      rw [enter] at next
      cases next

/-! Moves -/

theorem tasks_enter {c : Crew Memory} {before after : List Task} {call : Call}
    (tasks : c.tasks = before ++ ⟨call, .waiting⟩ :: after) (now : Moment) (tick : Nat) :
    ∃ phase, (c.enter now tick before.length).tasks = before ++ ⟨call, phase⟩ :: after ∧
      phase.hasBegun = true := by
  obtain ⟨here, replaced⟩ := at_split tasks
  unfold enter
  rw [here]
  dsimp only
  split
  · exact ⟨_, replaced _, rfl⟩
  · exact ⟨_, replaced _, rfl⟩
  · exact ⟨_, replaced _, rfl⟩

theorem tasks_finish {c : Crew Memory} {before after : List Task} {call : Call} {since : Moment}
    {entry : Option Entry} {due : Nat}
    (tasks : c.tasks = before ++ ⟨call, .fetching since entry due⟩ :: after) :
    ∃ answer, (c.finish before.length).tasks = before ++ ⟨call, .done answer true⟩ :: after := by
  obtain ⟨here, replaced⟩ := at_split tasks
  unfold finish
  rw [here]
  exact ⟨_, replaced _⟩

/-- Nobody has been given up, and the calls are these. -/
structure Attended (calls : List Call) (ts : List Task) : Prop where
  same : ts.map (·.call) = calls
  kept : ∀ t ∈ ts, t.phase ≠ .cancelled

theorem Attended.replace {calls : List Call} {before after : List Task} {call : Call}
    {phase phase' : Phase} (attended : Attended calls (before ++ ⟨call, phase⟩ :: after))
    (kept : phase' ≠ .cancelled) : Attended calls (before ++ ⟨call, phase'⟩ :: after) := by
  obtain ⟨same, all⟩ := attended
  refine ⟨by simpa using same, ?_⟩
  intro t member
  rw [List.mem_append, List.mem_cons] at member
  rcases member with early | rfl | late
  · exact all t (by simp [early])
  · exact kept
  · exact all t (by simp [late])

theorem reached_runFrom {start : Cache Memory} {now : Moment} {calls : List Call} {fuel : Nat}
    {c : Crew Memory} (tick : Nat) (reached : Reached (fun _ => now) start c) (attended : Attended calls c.tasks)
    (enough : work c.tasks ≤ fuel) :
    Reached (fun _ => now) start (runFrom now fuel tick c) ∧
      Attended calls (runFrom now fuel tick c).tasks ∧
      ∀ t ∈ (runFrom now fuel tick c).tasks, t.phase.isOpen = false := by
  induction fuel generalizing tick c with
  | zero =>
    refine ⟨reached, attended, ?_⟩
    intro t member
    cases isOpen : t.phase.isOpen with
    | false => rfl
    | true =>
      obtain ⟨before, after, tasks⟩ := List.append_of_mem member
      rw [show c.tasks = before ++ t :: after from tasks, work_split] at enough
      have own := Phase.work_pos isOpen
      omega
  | succ fuel ih =>
    unfold runFrom
    cases enter : nextToEnter [] c.tasks with
    | some i =>
      obtain ⟨before, call, after, tasks, rfl, _, closed⟩ := turnBehind_of_next enter
      -- entering and ending each take one from the work left, which the fuel bounds
      obtain ⟨phase, moved, begun⟩ := tasks_enter tasks now tick
      apply ih tick (reached.enter tick _ ⟨before, call, after, tasks, rfl, closed⟩)
      · rw [tasks] at attended
        rw [moved]
        apply attended.replace
        rintro rfl
        cases begun
      · rw [tasks, work_split] at enough
        rw [moved, work_split]
        have less := Phase.work_of_begun begun
        have old : Phase.waiting.work = 2 := rfl
        dsimp only at enough ⊢
        omega
    | none =>
      cases finish : nextToFinish c.tasks with
      | some next =>
        obtain ⟨i, due⟩ := next
        obtain ⟨call, since, entry, here⟩ := fetching_of_next finish
        obtain ⟨before, after, tasks, rfl⟩ := split_of_getElem? here
        obtain ⟨answer, moved⟩ := tasks_finish tasks
        apply ih due (reached.finish _)
        · rw [tasks] at attended
          rw [moved]
          exact attended.replace (fun absurd => by cases absurd)
        · rw [tasks, work_split] at enough
          rw [moved, work_split]
          have old : (Phase.fetching since entry due).work = 1 := rfl
          have new : (Phase.done answer true).work = 0 := rfl
          dsimp only at enough ⊢
          omega
      | none => exact ⟨reached, attended, closed_of_idle enter finish⟩

theorem reached_waiting (clock : Nat → Moment) (start : Cache Memory) (calls : List Call) :
    Reached clock start ⟨start, calls.map fun call => ⟨call, .waiting⟩⟩ := by
  induction calls using List.reverseRecOn with
  | nil => exact .start
  | append_singleton calls call ih =>
    rw [List.map_append]
    exact ih.arrive call

/-- The runnable order is one that turns allow, and every call gets an answer in it. -/
theorem run_answers (start : Cache Memory) (now : Moment) (calls : List Call) :
    Reached (fun _ => now) start (run start now calls) ∧
      (run start now calls).tasks.map (·.call) = calls ∧
      ∀ t ∈ (run start now calls).tasks, ∃ answer made, t.phase = .done answer made := by
  have fresh : Attended calls (calls.map fun call => (⟨call, .waiting⟩ : Task)) := by
    refine ⟨by simp [Function.comp_def], ?_⟩
    intro t member
    obtain ⟨call, _, rfl⟩ := List.mem_map.mp member
    exact fun absurd => by cases absurd
  have enough : work (calls.map fun call => (⟨call, .waiting⟩ : Task)) ≤ 2 * calls.length := by
    have each : (fun t : Task => t.phase.work) ∘ (fun call => ⟨call, .waiting⟩) = fun _ => 2 := rfl
    rw [work, List.map_map, each, List.map_const', List.sum_replicate_nat, Nat.mul_comm]
  obtain ⟨reached, ⟨same, kept⟩, closed⟩ :=
    reached_runFrom 0 (reached_waiting _ start calls) fresh enough
  refine ⟨reached, same, ?_⟩
  intro t member
  have closed := closed t member
  have kept := kept t member
  obtain ⟨call, phase⟩ := t
  cases phase with
  | waiting | fetching => cases closed
  | cancelled => exact absurd rfl kept
  | done answer made => exact ⟨answer, made, rfl⟩

end Crew
end QuoteDesk
