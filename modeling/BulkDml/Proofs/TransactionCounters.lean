import BulkDml.Session
import Mathlib.Data.List.Basic
import Mathlib.Order.Nat

/-! # What a session counts

Every transaction that a session has begun is committed, rolled back or open, however many are open at once
and whatever the database does with their commands and endings.  What carries this is that the guards of open
transactions are armed: only a commit that succeeds disarms one, and its transaction is gone by then.

* `Counters` are compared one by one, as a preorder;
* `Guard.finish_of_armed` — what an ending counts;
* `Session.IsBalanced`, `Session.IsBalanced.step`, `Session.IsBalanced.run` — the invariant, kept by one event
  and by many;
* `Session.IsAccount` — what an event does to the counters and the open transactions;
* `Session.counters_run` — the counters of a session after any events.
-/

namespace BulkDml

/-! ## Counters that grow -/

/-- Counters are compared one by one. -/
instance : Preorder Counters where
  le earlier later := earlier.connects ≤ later.connects ∧ earlier.disconnects ≤ later.disconnects
    ∧ earlier.commands ≤ later.commands ∧ earlier.begun ≤ later.begun
    ∧ earlier.committed ≤ later.committed ∧ earlier.rolledBack ≤ later.rolledBack
  le_refl counters := ⟨le_rfl, le_rfl, le_rfl, le_rfl, le_rfl, le_rfl⟩
  le_trans first second third := by
    rintro ⟨h₁, h₂, h₃, h₄, h₅, h₆⟩ ⟨k₁, k₂, k₃, k₄, k₅, k₆⟩
    exact ⟨h₁.trans k₁, h₂.trans k₂, h₃.trans k₃, h₄.trans k₄, h₅.trans k₅, h₆.trans k₆⟩

/-- Counters are at most others if each of them is. -/
theorem Counters.le_iff {earlier later : Counters} :
    earlier ≤ later ↔ earlier.connects ≤ later.connects ∧ earlier.disconnects ≤ later.disconnects
      ∧ earlier.commands ≤ later.commands ∧ earlier.begun ≤ later.begun
      ∧ earlier.committed ≤ later.committed ∧ earlier.rolledBack ≤ later.rolledBack :=
  Iff.rfl

namespace Guard

/-- An armed guard counts one commit if the transaction was committed, and one rollback otherwise. -/
theorem finish_of_armed {guard : Guard} (h : guard.armed = true) (ending : Ending) (succeeds : Bool)
    (counters : Counters) :
    guard.finish ending succeeds counters
      = if ending = .commit ∧ succeeds = true then
          { counters with committed := counters.committed + 1 }
        else { counters with rolledBack := counters.rolledBack + 1 } := by
  have hdrop : guard.drop counters = { counters with rolledBack := counters.rolledBack + 1 } := by
    rw [drop, if_pos h]
  cases ending with
  | commit =>
    cases succeeds with
    | true => rfl
    | false => exact hdrop
  | rollback => exact hdrop
  | drop => exact hdrop

/-- A guard that goes takes nothing off the counters. -/
theorem le_drop (guard : Guard) (counters : Counters) : counters ≤ guard.drop counters := by
  unfold drop
  split
  · exact Counters.le_iff.mpr ⟨le_rfl, le_rfl, le_rfl, le_rfl, le_rfl, Nat.le_succ _⟩
  · exact le_rfl

/-- Ending a transaction takes nothing off the counters. -/
theorem le_finish (guard : Guard) (ending : Ending) (succeeds : Bool) (counters : Counters) :
    counters ≤ guard.finish ending succeeds counters := by
  unfold finish
  split
  · refine le_trans ?_ (le_drop _ _)
    exact Counters.le_iff.mpr ⟨le_rfl, le_rfl, le_rfl, le_rfl, Nat.le_succ _, le_rfl⟩
  all_goals exact le_drop guard counters

end Guard

namespace Session

/-- The events of a list come behind those of another one. -/
theorem run_append (session : Session) (events more : List (Event × Bool)) :
    session.run (events ++ more) = (session.run events).run more :=
  List.foldl_append

/-- No event takes anything off the counters. -/
theorem counters_le_step (session : Session) (event : Event) (succeeds : Bool) :
    session.counters ≤ (session.step event succeeds).counters := by
  cases event with
  | begin =>
    cases succeeds with
    | true => exact Counters.le_iff.mpr ⟨le_rfl, le_rfl, le_rfl, Nat.le_succ _, le_rfl, le_rfl⟩
    | false => exact le_rfl
  | command => exact Counters.le_iff.mpr ⟨le_rfl, le_rfl, Nat.le_succ _, le_rfl, le_rfl, le_rfl⟩
  | finish position ending =>
    unfold step
    dsimp only
    split
    · exact le_rfl
    · exact Guard.le_finish _ _ _ _
  | close => exact Counters.le_iff.mpr ⟨le_rfl, Nat.le_succ _, le_rfl, le_rfl, le_rfl, le_rfl⟩

/-- No events take anything off the counters. -/
theorem counters_le_run (session : Session) (events : List (Event × Bool)) :
    session.counters ≤ (session.run events).counters := by
  induction events generalizing session with
  | nil => exact le_rfl
  | cons first rest ih =>
    obtain ⟨event, succeeds⟩ := first
    exact le_trans (session.counters_le_step event succeeds) (ih (session.step event succeeds))

/-! ## Commands -/

/-- An event counts a command exactly if it is one, whatever the database does with it. -/
theorem commands_step (session : Session) (event : Event) (succeeds : Bool) :
    (session.step event succeeds).counters.commands
      = session.counters.commands + if event = .command then 1 else 0 := by
  cases event with
  | begin => cases succeeds <;> rfl
  | command => rfl
  | finish position ending =>
    unfold step
    dsimp only
    split
    · rfl
    · next guard _ =>
      unfold Guard.finish Guard.drop
      split <;> split <;> rfl
  | close => rfl

/-- The commands are counted one by one. -/
theorem commands_run (session : Session) (events : List (Event × Bool)) :
    (session.run events).counters.commands
      = session.counters.commands + events.countP fun event => event.1 = .command := by
  induction events generalizing session with
  | nil => rfl
  | cons first rest ih =>
    obtain ⟨event, succeeds⟩ := first
    rw [run_cons, ih, commands_step, List.countP_cons]
    simp only [decide_eq_true_eq]
    omega

/-! ## Transactions -/

/-- Whether the transactions that were begun are those that were committed, those that were rolled back and
those that are open. -/
structure IsBalanced (session : Session) : Prop where
  /-- Every open transaction counts when it ends. -/
  armed : ∀ guard ∈ session.transactions, guard.armed = true
  /-- No transaction is missing, and none is counted twice. -/
  begun_eq : session.counters.begun
    = session.counters.committed + session.counters.rolledBack + session.transactions.length

/-- What an event does to the counters and the open transactions of a session, under the outcome that the
database gives it. -/
def IsAccount (before : Session) : Event → Bool → Session → Prop
  | .begin, true, after =>
    after.counters = { before.counters with begun := before.counters.begun + 1 }
      ∧ after.transactions.length = before.transactions.length + 1
  | .begin, false, after => after = before
  | .command, _, after =>
    after.counters = { before.counters with commands := before.counters.commands + 1 }
      ∧ after.transactions = before.transactions
  | .finish position ending, succeeds, after =>
    if position < before.transactions.length then
      after.counters
          = (if ending = .commit ∧ succeeds = true then
              { before.counters with committed := before.counters.committed + 1 }
            else { before.counters with rolledBack := before.counters.rolledBack + 1 })
        ∧ after.transactions.length + 1 = before.transactions.length
    else after = before
  | .close, _, after =>
    after.counters = { before.counters with disconnects := before.counters.disconnects + 1 }
      ∧ after.transactions = before.transactions

/-- There is nothing to end where no transaction is open. -/
theorem step_finish_of_le {session : Session} {position : Nat}
    (h : session.transactions.length ≤ position) (ending : Ending) (succeeds : Bool) :
    session.step (.finish position ending) succeeds = session := by
  rw [step, List.getElem?_eq_none h]

namespace IsBalanced

variable {session : Session}

/-- An open transaction is taken out of a balanced session when it ends, and counts once. -/
theorem step_finish (h : session.IsBalanced) {position : Nat}
    (hposition : position < session.transactions.length) (ending : Ending) (succeeds : Bool) :
    session.step (.finish position ending) succeeds
      = { session with
          counters :=
            if ending = .commit ∧ succeeds = true then
              { session.counters with committed := session.counters.committed + 1 }
            else { session.counters with rolledBack := session.counters.rolledBack + 1 }
          transactions := session.transactions.eraseIdx position } := by
  -- the guard at the position is armed, so that it counts
  have harmed := h.armed _ (List.getElem_mem hposition)
  rw [Session.step, List.getElem?_eq_getElem hposition]
  dsimp only
  rw [Guard.finish_of_armed harmed]

/-- An event of a balanced session is accounted for. -/
theorem isAccount (h : session.IsBalanced) (event : Event) (succeeds : Bool) :
    session.IsAccount event succeeds (session.step event succeeds) := by
  cases event with
  | begin =>
    cases succeeds with
    | true => exact ⟨rfl, List.length_append⟩
    | false => rfl
  | command => exact ⟨rfl, rfl⟩
  | finish position ending =>
    rw [IsAccount]
    by_cases hposition : position < session.transactions.length
    · rw [if_pos hposition, h.step_finish hposition]
      exact ⟨rfl, List.length_eraseIdx_add_one hposition⟩
    · rw [if_neg hposition, step_finish_of_le (Nat.le_of_not_lt hposition)]
  | close => exact ⟨rfl, rfl⟩

/-- **One event.**  It leaves the session balanced. -/
theorem step (h : session.IsBalanced) (event : Event) (succeeds : Bool) :
    (session.step event succeeds).IsBalanced := by
  have hbegun := h.begun_eq
  cases event with
  | begin =>
    cases succeeds with
    | false => exact h
    | true =>
      -- one more was begun, and one more is open; its guard is armed
      have hlength : (session.step .begin true).transactions.length
          = session.transactions.length + 1 := List.length_append
      constructor
      · intro guard hguard
        rcases List.mem_append.mp hguard with hold | hnew
        · exact h.armed guard hold
        · rw [List.mem_singleton.mp hnew]
      · rw [hlength, Session.step, if_pos rfl]
        dsimp only
        omega
  | command => exact ⟨h.armed, hbegun⟩
  | close => exact ⟨h.armed, hbegun⟩
  | finish position ending =>
    by_cases hposition : position < session.transactions.length
    · -- one fewer is open, and one more is committed or rolled back
      have hlength := List.length_eraseIdx_add_one hposition
      rw [h.step_finish hposition]
      constructor
      · intro guard hguard
        exact h.armed guard (List.mem_of_mem_eraseIdx hguard)
      · dsimp only
        split <;> dsimp only <;> omega
    · rw [step_finish_of_le (Nat.le_of_not_lt hposition)]
      exact h

/-- **All events.**  They leave the session balanced. -/
theorem run (h : session.IsBalanced) (events : List (Event × Bool)) :
    (session.run events).IsBalanced := by
  induction events generalizing session with
  | nil => exact h
  | cons first rest ih =>
    obtain ⟨event, succeeds⟩ := first
    exact ih (h.step event succeeds)

end IsBalanced

/-- Whether a session has opened no transaction and sent no command yet. -/
structure IsUnused (session : Session) : Prop where
  /-- No command was sent. -/
  commands : session.counters.commands = 0
  /-- No transaction was begun. -/
  begun : session.counters.begun = 0
  /-- None was committed. -/
  committed : session.counters.committed = 0
  /-- None was rolled back. -/
  rolledBack : session.counters.rolledBack = 0
  /-- None is open. -/
  transactions : session.transactions = []

/-- An unused session is balanced. -/
theorem IsUnused.isBalanced {session : Session} (h : session.IsUnused) : session.IsBalanced := by
  constructor
  · intro guard hguard
    rw [h.transactions] at hguard
    cases hguard
  · rw [h.begun, h.committed, h.rolledBack, h.transactions]
    rfl

/-- **The counters of a session**, after any events with any outcomes.  The transactions that were begun are
those that were committed, those that were rolled back and those that are open; every command was counted;
the next event counts as it should; and whatever comes, no counter decreases. -/
theorem counters_run {start : Session} (hstart : start.IsUnused) (events : List (Event × Bool)) :
    (start.run events).counters.begun
        = (start.run events).counters.committed + (start.run events).counters.rolledBack
          + (start.run events).transactions.length
      ∧ (start.run events).counters.commands
        = events.countP (fun event => event.1 = .command)
      ∧ (∀ event succeeds, (start.run events).IsAccount event succeeds
          ((start.run events).step event succeeds))
      ∧ ∀ more, (start.run events).counters ≤ (start.run (events ++ more)).counters := by
  have hbalanced := hstart.isBalanced.run events
  refine ⟨hbalanced.begun_eq, ?_, hbalanced.isAccount, ?_⟩
  · rw [commands_run, hstart.commands, Nat.zero_add]
  · intro more
    rw [run_append]
    exact (start.run events).counters_le_run more

/-- Three transactions, two of them open at once: the first cannot be committed, the second is, and the third
is dropped.  A fourth cannot be begun. -/
def crossingTransactions : List (Event × Bool) :=
  [(.begin, true), (.command, true), (.begin, true), (.command, false), (.finish 0 .commit, false),
    (.begin, false), (.begin, true), (.finish 0 .commit, true), (.command, true), (.finish 0 .drop, true)]

/-- Each of `crossingTransactions` is counted once. -/
theorem counters_run_crossingTransactions :
    (connect defaultShardTag).IsUnused
      ∧ ((connect defaultShardTag).run crossingTransactions).counters
        = { connects := 1, commands := 3, begun := 3, committed := 1, rolledBack := 2 }
      ∧ ((connect defaultShardTag).run crossingTransactions).counters.begun
        = ((connect defaultShardTag).run crossingTransactions).counters.committed
          + ((connect defaultShardTag).run crossingTransactions).counters.rolledBack
          + ((connect defaultShardTag).run crossingTransactions).transactions.length := by
  have hstart : (connect defaultShardTag).IsUnused := ⟨rfl, rfl, rfl, rfl, rfl⟩
  obtain ⟨hbegun, -⟩ := counters_run hstart crossingTransactions
  exact ⟨hstart, rfl, hbegun⟩

end Session

end BulkDml
