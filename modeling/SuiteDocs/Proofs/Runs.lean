import SuiteDocs.Project.Basic
import SuiteDocs.Proofs.Logged

/-!
What runs over a file tree give, change and say.

A sequence runs its second part on the tree that the first one leaves, unless the first one fails.
-/

set_option autoImplicit false

namespace SuiteDocs.Run

variable {ε δ α β : Type}

/-- What a run on a tree gives. -/
def outcome (run : Run ε α) (tree : FileTree) : Except ε α :=
  (ExceptT.run run tree).value.1

/-- The tree that a run leaves, whether or not it fails. -/
def treeAfter (run : Run ε α) (tree : FileTree) : FileTree :=
  (ExceptT.run run tree).value.2

/-- What a run leaves behind in the log, whether or not it fails. -/
def messages (run : Run ε α) (tree : FileTree) : List LogRecord :=
  (ExceptT.run run tree).records

/-! ## Sequences -/

theorem outcome_bind_of_ok {run : Run ε α} {tree : FileTree} {value : α}
    (given : outcome run tree = .ok value) (next : α → Run ε β) :
    outcome (run >>= next) tree = outcome (next value) (treeAfter run tree) := by
  change (ExceptT.bindCont next (outcome run tree) (treeAfter run tree)).value.1 = _
  rw [given]
  rfl

theorem outcome_bind_of_error {run : Run ε α} {tree : FileTree} {error : ε}
    (given : outcome run tree = .error error) (next : α → Run ε β) :
    outcome (run >>= next) tree = .error error := by
  change (ExceptT.bindCont next (outcome run tree) (treeAfter run tree)).value.1 = _
  rw [given]
  rfl

theorem treeAfter_bind_of_ok {run : Run ε α} {tree : FileTree} {value : α}
    (given : outcome run tree = .ok value) (next : α → Run ε β) :
    treeAfter (run >>= next) tree = treeAfter (next value) (treeAfter run tree) := by
  change (ExceptT.bindCont next (outcome run tree) (treeAfter run tree)).value.2 = _
  rw [given]
  rfl

theorem treeAfter_bind_of_error {run : Run ε α} {tree : FileTree} {error : ε}
    (given : outcome run tree = .error error) (next : α → Run ε β) :
    treeAfter (run >>= next) tree = treeAfter run tree := by
  change (ExceptT.bindCont next (outcome run tree) (treeAfter run tree)).value.2 = _
  rw [given]
  rfl

theorem messages_bind_of_ok {run : Run ε α} {tree : FileTree} {value : α}
    (given : outcome run tree = .ok value) (next : α → Run ε β) :
    messages (run >>= next) tree = messages run tree ++ messages (next value) (treeAfter run tree) := by
  change messages run tree ++
    (ExceptT.bindCont next (outcome run tree) (treeAfter run tree)).records = _
  rw [given]
  rfl

theorem messages_bind_of_error {run : Run ε α} {tree : FileTree} {error : ε}
    (given : outcome run tree = .error error) (next : α → Run ε β) :
    messages (run >>= next) tree = messages run tree := by
  change messages run tree ++
    (ExceptT.bindCont next (outcome run tree) (treeAfter run tree)).records = _
  rw [given]
  exact List.append_nil _

/-- A sequence gives a result if both of its parts do. -/
theorem outcome_bind_eq_ok_iff {run : Run ε α} {next : α → Run ε β} {tree : FileTree} {result : β} :
    outcome (run >>= next) tree = .ok result ↔
      ∃ value, outcome run tree = .ok value ∧
        outcome (next value) (treeAfter run tree) = .ok result := by
  cases given : outcome run tree with
  | error error =>
    rw [outcome_bind_of_error given]
    constructor
    · intro same
      cases same
    · rintro ⟨value, same, -⟩
      cases same
  | ok value =>
    rw [outcome_bind_of_ok given]
    constructor
    · intro next
      exact ⟨value, rfl, next⟩
    · rintro ⟨_, same, next⟩
      obtain rfl := Except.ok.inj same
      exact next

/-! ## Parts that leave the tree as it is -/

/-- A run that gives the same result on every tree, with the same messages, and changes none. -/
structure Still (run : Run ε α) (result : Except ε α) (records : List LogRecord) : Prop where
  outcome : ∀ tree, outcome run tree = result
  treeAfter : ∀ tree, treeAfter run tree = tree
  messages : ∀ tree, messages run tree = records

/-- A sequence that starts with such a run goes on with its result. -/
theorem Still.bind_eq_ok {run : Run ε α} {result : Except ε α} {records : List LogRecord}
    (still : Still run result records) {next : α → Run ε β} {tree : FileTree} {final : β}
    (given : Run.outcome (run >>= next) tree = .ok final) :
    ∃ value, result = .ok value ∧ Run.outcome (next value) tree = .ok final ∧
      Run.treeAfter (run >>= next) tree = Run.treeAfter (next value) tree ∧
      Run.messages (run >>= next) tree = records ++ Run.messages (next value) tree := by
  obtain ⟨value, first, later⟩ := outcome_bind_eq_ok_iff.mp given
  have after := treeAfter_bind_of_ok first next
  have said := messages_bind_of_ok first next
  rw [still.treeAfter] at later after said
  rw [still.messages] at said
  exact ⟨value, (still.outcome tree).symm.trans first, later, after, said⟩

theorem Still.outcome_bind {run : Run ε α} {value : α} {records : List LogRecord}
    (still : Still run (.ok value) records) (next : α → Run ε β) (tree : FileTree) :
    Run.outcome (run >>= next) tree = Run.outcome (next value) tree := by
  rw [outcome_bind_of_ok (still.outcome tree), still.treeAfter]

/-- What follows such a run is decided by its result alone. -/
theorem Still.outcome_bind_eq {run : Run ε α} {result : Except ε α} {records : List LogRecord}
    (still : Still run result records) (next : α → Run ε β) (tree : FileTree) :
    Run.outcome (run >>= next) tree = result >>= fun value => Run.outcome (next value) tree := by
  cases result with
  | error error => exact outcome_bind_of_error (still.outcome tree) next
  | ok value => exact still.outcome_bind next tree

theorem still_pure (value : α) : Still (pure value : Run ε α) (.ok value) [] :=
  ⟨fun _ => rfl, fun _ => rfl, fun _ => rfl⟩

theorem still_throw (error : ε) : Still (throw error : Run ε α) (.error error) [] :=
  ⟨fun _ => rfl, fun _ => rfl, fun _ => rfl⟩

theorem still_liftM (logged : Logged α) :
    Still (liftM logged : Run ε α) (.ok logged.value) logged.records := by
  refine ⟨fun _ => rfl, fun _ => rfl, fun tree => ?_⟩
  change (logged.records ++ []) ++ [] = logged.records
  rw [List.append_nil, List.append_nil]

theorem still_ofExcept (result : Except ε α) :
    Still (MonadExcept.ofExcept result : Run ε α) result [] := by
  cases result with
  | error error => exact still_throw error
  | ok value => exact still_pure value

theorem still_wrapped (wrap : ε → δ) (result : Except ε α) :
    Still (ofExcept wrap result) (result.mapError wrap) [] :=
  still_ofExcept _

theorem still_ofLogged (wrap : ε → δ) (action : LoggedExcept ε α) :
    Still (ofLogged wrap action) (action.outcome.mapError wrap) action.messages := by
  refine ⟨fun _ => rfl, fun _ => rfl, fun tree => ?_⟩
  change (action.messages ++ []) ++ [] = action.messages
  rw [List.append_nil, List.append_nil]

/-! ## Looking at the tree -/

theorem outcome_get_bind (next : FileTree → Run ε β) (tree : FileTree) :
    outcome (get >>= next) tree = outcome (next tree) tree := rfl

theorem messages_get_bind (next : FileTree → Run ε β) (tree : FileTree) :
    messages (get >>= next) tree = messages (next tree) tree := rfl

/-! ## Messages -/

/-- Every message satisfies a condition, whether or not the run fails. -/
def Emits (allowed : LogRecord → Prop) (run : Run ε α) : Prop :=
  ∀ tree, ∀ record ∈ messages run tree, allowed record

variable {allowed : LogRecord → Prop}

theorem Still.emits {run : Run ε α} {result : Except ε α} {records : List LogRecord}
    (still : Still run result records) (each : ∀ record ∈ records, allowed record) :
    Emits allowed run := by
  intro tree record member
  rw [still.messages] at member
  exact each record member

theorem emits_of_silent {run : Run ε α} (silent : ∀ tree, messages run tree = []) : Emits allowed run := by
  intro tree record member
  rw [silent] at member
  cases member

theorem Emits.bind {run : Run ε α} {next : α → Run ε β} (first : Emits allowed run)
    (others : ∀ value, Emits allowed (next value)) : Emits allowed (run >>= next) := by
  intro tree record member
  cases given : outcome run tree with
  | error error =>
    rw [messages_bind_of_error given] at member
    exact first tree record member
  | ok value =>
    rw [messages_bind_of_ok given] at member
    rcases List.mem_append.mp member with early | late
    · exact first tree record early
    · exact others value _ record late

/-! ## Errors of another kind -/

theorem outcome_adapt (wrap : ε → δ) (run : Run ε α) (tree : FileTree) :
    outcome (adapt wrap run) tree = (outcome run tree).mapError wrap := rfl

theorem messages_adapt (wrap : ε → δ) (run : Run ε α) (tree : FileTree) :
    messages (adapt wrap run) tree = messages run tree := by
  change messages run tree ++ [] = messages run tree
  exact List.append_nil _

end SuiteDocs.Run
