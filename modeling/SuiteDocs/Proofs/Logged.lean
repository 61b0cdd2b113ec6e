import Mathlib.Data.List.Forall2
import SuiteDocs.Log

/-!
Outcomes and messages of logged computations.

Logging never decides what a computation gives: its outcome is that of the same steps without the
messages. The messages of a sequence are those of its steps, up to the first that fails.
-/

set_option autoImplicit false

namespace SuiteDocs

/-! ## Computations that may fail -/

theorem bind_eq_ok_iff {ε α β : Type} {first : Except ε α} {next : α → Except ε β} {result : β} :
    first >>= next = .ok result ↔ ∃ value, first = .ok value ∧ next value = .ok result := by
  cases first with
  | error error => simp [bind, Except.bind]
  | ok value => simp [bind, Except.bind]

theorem ok_bind {ε α β : Type} (value : α) (next : α → Except ε β) :
    (.ok value : Except ε α) >>= next = next value := rfl

theorem mapError_ok_bind {ε ε' α β : Type} (change : ε → ε') (value : α) (next : α → Except ε' β) :
    (Except.ok value).mapError change >>= next = next value := rfl

theorem mapError_eq_ok_iff {ε ε' α : Type} {change : ε → ε'} {result : Except ε α} {value : α} :
    result.mapError change = .ok value ↔ result = .ok value := by
  cases result <;> simp [Except.mapError]

theorem eq_ok_of_toOption {ε α : Type} {result : Except ε α} {value : α}
    (given : result.toOption = some value) : result = .ok value := by
  cases result with
  | error error => cases given
  | ok other => exact congrArg Except.ok (Option.some.inj given)

/-- A pass over a list succeeds with the results of its members. -/
theorem mapM_eq_ok_iff {ε α β : Type} {step : α → Except ε β} {items : List α}
    {results : List β} :
    items.mapM step = .ok results ↔
      List.Forall₂ (fun item result => step item = .ok result) items results := by
  induction items generalizing results with
  | nil => simp [pure, Except.pure, eq_comm]
  | cons item rest ih =>
    rw [List.mapM_cons, bind_eq_ok_iff, List.forall₂_cons_left_iff]
    refine exists_congr fun value => ?_
    simp only [bind_eq_ok_iff, ih, pure, Except.pure, Except.ok.injEq]
    constructor
    · rintro ⟨head, others, tail, same⟩
      exact ⟨others, head, tail, same.symm⟩
    · rintro ⟨others, head, tail, same⟩
      exact ⟨head, others, tail, same.symm⟩

theorem mapM_congr {m : Type → Type} [Monad m] [LawfulMonad m] {α β : Type} {step step' : α → m β}
    {items : List α} (same : ∀ item ∈ items, step item = step' item) :
    items.mapM step = items.mapM step' := by
  induction items with
  | nil => rfl
  | cons item rest ih =>
    rw [List.mapM_cons, List.mapM_cons, same item List.mem_cons_self,
      ih fun other member => same other (List.mem_cons_of_mem _ member)]

theorem exists_mapM_eq_ok {ε α β : Type} {step : α → Except ε β} {items : List α}
    (each : ∀ item ∈ items, ∃ result, step item = .ok result) :
    ∃ results, items.mapM step = .ok results := by
  induction items with
  | nil => exact ⟨[], rfl⟩
  | cons item rest ih =>
    obtain ⟨result, head⟩ := each item List.mem_cons_self
    obtain ⟨results, tail⟩ := ih fun other member => each other (List.mem_cons_of_mem _ member)
    exact ⟨result :: results, mapM_eq_ok_iff.mpr (.cons head (mapM_eq_ok_iff.mp tail))⟩

theorem exists_of_forall₂ {α β : Type} {relation : α → β → Prop} {items : List α} {results : List β}
    (related : List.Forall₂ relation items results) {result : β} (member : result ∈ results) :
    ∃ item ∈ items, relation item result := by
  induction related with
  | nil => cases member
  | @cons item made rest others head tail ih =>
    rcases List.mem_cons.mp member with rfl | member
    · exact ⟨item, List.mem_cons_self, head⟩
    · obtain ⟨other, listed, gives⟩ := ih member
      exact ⟨other, List.mem_cons_of_mem _ listed, gives⟩

/-! ## Logged computations -/

namespace Logged

@[simp] theorem value_pure {α : Type} (value : α) : (pure value : Logged α).value = value := rfl

@[simp] theorem value_bind {α β : Type} (logged : Logged α) (next : α → Logged β) :
    (logged >>= next).value = (next logged.value).value := rfl

@[simp] theorem records_pure {α : Type} (value : α) : (pure value : Logged α).records = [] := rfl

@[simp] theorem records_bind {α β : Type} (logged : Logged α) (next : α → Logged β) :
    (logged >>= next).records = logged.records ++ (next logged.value).records := rfl

private theorem map_identity {α : Type} (logged : Logged α) : id <$> logged = logged := by
  change (⟨logged.value, logged.records ++ []⟩ : Logged α) = logged
  rw [List.append_nil]

private theorem bind_associates {α β γ : Type} (logged : Logged α) (next : α → Logged β)
    (last : β → Logged γ) :
    logged >>= next >>= last = logged >>= fun value => next value >>= last := by
  change (⟨_, _⟩ : Logged γ) = ⟨_, _⟩
  simp only [records_bind, value_bind, List.append_assoc]

instance : LawfulMonad Logged :=
  LawfulMonad.mk' Logged map_identity (fun _ _ => rfl) bind_associates

end Logged

namespace LoggedExcept

variable {ε ε' α β : Type}

/-- What a logged computation gives. -/
def outcome (computation : LoggedExcept ε α) : Except ε α :=
  computation.run.value

/-- What a logged computation leaves behind, whether or not it fails. -/
def messages (computation : LoggedExcept ε α) : List LogRecord :=
  computation.run.records

@[simp] theorem outcome_pure (value : α) :
    outcome (pure value : LoggedExcept ε α) = .ok value := rfl

@[simp] theorem outcome_throw (error : ε) :
    outcome (throw error : LoggedExcept ε α) = .error error := rfl

@[simp] theorem outcome_lift (logged : Logged α) :
    outcome (monadLift logged : LoggedExcept ε α) = .ok logged.value := rfl

@[simp] theorem outcome_ofExcept (result : Except ε α) :
    outcome (MonadExcept.ofExcept result : LoggedExcept ε α) = result := by
  cases result <;> rfl

theorem ofExcept_ok (value : α) :
    (MonadExcept.ofExcept (.ok value) : LoggedExcept ε α) = pure value := rfl

@[simp] theorem outcome_bind (computation : LoggedExcept ε α) (next : α → LoggedExcept ε β) :
    outcome (computation >>= next) = outcome computation >>= fun value => outcome (next value) := by
  change (ExceptT.run (computation >>= next)).value = computation.run.value >>= _
  rw [ExceptT.run_bind, Logged.value_bind]
  cases computation.run.value <;> rfl

@[simp] theorem outcome_adapt (change : ε → ε') (computation : LoggedExcept ε α) :
    outcome (ExceptT.adapt change computation) = (outcome computation).mapError change := rfl

theorem outcome_tryCatch (computation : LoggedExcept ε α) (handle : ε → LoggedExcept ε α) :
    outcome (tryCatch computation handle) = match outcome computation with
      | .ok value => .ok value
      | .error error => outcome (handle error) := by
  obtain ⟨result, records⟩ := computation
  cases result <;> rfl

theorem outcome_mapM {items : List α} (step : α → LoggedExcept ε β) :
    outcome (items.mapM step) = items.mapM fun item => outcome (step item) := by
  induction items with
  | nil => rfl
  | cons item rest ih => simp only [List.mapM_cons, outcome_bind, outcome_pure, ih]; rfl

theorem outcome_forM_lift (items : List α) (step : α → Logged Unit) :
    outcome (items.forM fun item => (monadLift (step item) : LoggedExcept ε Unit)) = .ok () := by
  induction items with
  | nil => rfl
  | cons item rest ih =>
    change outcome (monadLift (step item) >>= fun _ => rest.forM _) = _
    rw [outcome_bind, outcome_lift]
    exact ih

/-- A computation gives a result if all its steps do. -/
theorem exists_outcome_bind {computation : LoggedExcept ε α} {next : α → LoggedExcept ε β}
    (first : ∃ value, outcome computation = .ok value)
    (each : ∀ value, ∃ result, outcome (next value) = .ok result) :
    ∃ result, outcome (computation >>= next) = .ok result := by
  obtain ⟨value, given⟩ := first
  obtain ⟨result, gives⟩ := each value
  exact ⟨result, by rw [outcome_bind, given]; exact gives⟩

theorem exists_outcome_mapM {step : α → LoggedExcept ε β} {items : List α}
    (each : ∀ item ∈ items, ∃ result, outcome (step item) = .ok result) :
    ∃ results, outcome (items.mapM step) = .ok results := by
  rw [outcome_mapM]
  exact exists_mapM_eq_ok each

theorem outcome_foldlM {items : List α} (step : β → α → LoggedExcept ε β) (initial : β) :
    outcome (items.foldlM step initial) =
      items.foldlM (fun state item => outcome (step state item)) initial := by
  induction items generalizing initial with
  | nil => rfl
  | cons item rest ih => simp only [List.foldlM_cons, outcome_bind, ih]

@[simp] theorem messages_pure (value : α) :
    messages (pure value : LoggedExcept ε α) = [] := rfl

@[simp] theorem messages_throw (error : ε) :
    messages (throw error : LoggedExcept ε α) = [] := rfl

@[simp] theorem messages_lift (logged : Logged α) :
    messages (monadLift logged : LoggedExcept ε α) = logged.records := by
  change logged.records ++ [] = logged.records
  exact List.append_nil _

@[simp] theorem messages_ofExcept (result : Except ε α) :
    messages (MonadExcept.ofExcept result : LoggedExcept ε α) = [] := by
  cases result <;> rfl

@[simp] theorem messages_adapt (change : ε → ε') (computation : LoggedExcept ε α) :
    messages (ExceptT.adapt change computation) = messages computation := by
  change computation.run.records ++ [] = computation.run.records
  exact List.append_nil _

theorem messages_bind_of_ok {computation : LoggedExcept ε α} {value : α}
    (given : outcome computation = .ok value) (next : α → LoggedExcept ε β) :
    messages (computation >>= next) = messages computation ++ messages (next value) := by
  change (ExceptT.run (computation >>= next)).records = _
  change computation.run.value = .ok value at given
  rw [ExceptT.run_bind, Logged.records_bind, given]
  rfl

theorem messages_bind_of_error {computation : LoggedExcept ε α} {error : ε}
    (given : outcome computation = .error error) (next : α → LoggedExcept ε β) :
    messages (computation >>= next) = messages computation := by
  change (ExceptT.run (computation >>= next)).records = _
  change computation.run.value = .error error at given
  rw [ExceptT.run_bind, Logged.records_bind, given]
  exact List.append_nil _

theorem messages_mapM_of_ok {step : α → LoggedExcept ε β} {items : List α} {results : List β}
    (given : outcome (items.mapM step) = .ok results) :
    messages (items.mapM step) = items.flatMap fun item => messages (step item) := by
  induction items generalizing results with
  | nil => rfl
  | cons item rest ih =>
    rw [List.mapM_cons] at given ⊢
    rw [outcome_bind, bind_eq_ok_iff] at given
    obtain ⟨value, head, given⟩ := given
    rw [outcome_bind, bind_eq_ok_iff] at given
    obtain ⟨values, tail, -⟩ := given
    rw [messages_bind_of_ok head, messages_bind_of_ok tail, ih tail, messages_pure,
      List.append_nil, List.flatMap_cons]

/-- Every message satisfies a condition, whether or not the computation fails. -/
def Emits (allowed : LogRecord → Prop) (computation : LoggedExcept ε α) : Prop :=
  ∀ record ∈ messages computation, allowed record

variable {allowed : LogRecord → Prop}

theorem emits_of_silent {computation : LoggedExcept ε α} (silent : messages computation = []) :
    Emits allowed computation := by
  intro record member
  rw [silent] at member
  cases member

theorem emits_lift {logged : Logged α} (each : ∀ record ∈ logged.records, allowed record) :
    Emits allowed (monadLift logged : LoggedExcept ε α) := by
  intro record member
  rw [messages_lift] at member
  exact each record member

theorem Emits.bind {computation : LoggedExcept ε α} {next : α → LoggedExcept ε β}
    (first : Emits allowed computation) (others : ∀ value, Emits allowed (next value)) :
    Emits allowed (computation >>= next) := by
  intro record member
  cases given : outcome computation with
  | error error =>
    rw [messages_bind_of_error given] at member
    exact first record member
  | ok value =>
    rw [messages_bind_of_ok given] at member
    rcases List.mem_append.mp member with early | late
    · exact first record early
    · exact others value record late

theorem Emits.mapM {step : α → LoggedExcept ε β} (each : ∀ item, Emits allowed (step item))
    (items : List α) : Emits allowed (items.mapM step) := by
  induction items with
  | nil => exact emits_of_silent rfl
  | cons item rest ih =>
    rw [List.mapM_cons]
    exact (each item).bind fun value => ih.bind fun values => emits_of_silent rfl

end LoggedExcept

end SuiteDocs
