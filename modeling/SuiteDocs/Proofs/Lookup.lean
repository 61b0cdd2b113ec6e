import SuiteDocs.Proofs.Agreement
import SuiteDocs.Proofs.Recovery

/-!
Looking up a declaration.

The search goes on behind the opening bracket of each call that it visits, so it visits every call of one
of the names, also those inside others, from left to right. What is looked up is therefore read at the
leftmost call where a declaration with the wanted title can be read: no call that cannot be read, and no
name in a literal or comment, hides a later one.

All of this needs a name. With none to look for, an opening bracket before a quote is taken for a call.
-/

set_option autoImplicit false

namespace SuiteDocs

open SuiteDocs.Text SuiteDocs.Source

namespace Block

/-! ## Selecting among declarations -/

/-- The declaration has the title that is asked for, if one is. -/
def Wanted (title : Option Text) (block : Block) : Prop :=
  ∀ asked ∈ title, block.title = asked

theorem wanted_iff {title : Option Text} {block : Block} :
    Wanted title block ↔ title.all (· == block.title) = true := by
  cases title with
  | none => simp [Wanted]
  | some asked =>
    rw [Option.all_some, beq_iff_eq]
    constructor
    · intro wanted
      exact (wanted asked rfl).symm
    · intro same other member
      obtain rfl := Option.mem_some_iff.mp member
      exact same.symm

section Select

variable {missing : Error} {title : Option Text} {visited : List (CallSite × Except Error Block)}

/-- The wanted declaration of a visited call before which no visited call declares a wanted one. -/
def IsLeftmostOf (title : Option Text) (visited : List (CallSite × Except Error Block))
    (block : Block) : Prop :=
  ∃ site, (site, .ok block) ∈ visited ∧ Wanted title block ∧
    ∀ other earlier, (other, .ok earlier) ∈ visited → other.start < site.start →
      ¬ Wanted title earlier

/-- A call that does not declare what is wanted counts for nothing. -/
theorem isLeftmostOf_cons_iff {first : CallSite} {result : Except Error Block} {block : Block}
    (unwanted : ∀ found, result = .ok found → ¬ Wanted title found) :
    IsLeftmostOf title ((first, result) :: visited) block ↔ IsLeftmostOf title visited block := by
  constructor
  · intro chosen
    obtain ⟨site, member, wanted, leftmost⟩ := chosen
    cases List.mem_cons.mp member with
    | inl head => exact absurd wanted (unwanted block (Prod.mk.inj head).2.symm)
    | inr member =>
      refine ⟨site, member, wanted, ?_⟩
      intro other earlier listed
      exact leftmost other earlier (List.mem_cons_of_mem _ listed)
  · intro chosen
    obtain ⟨site, member, wanted, leftmost⟩ := chosen
    refine ⟨site, List.mem_cons_of_mem _ member, wanted, ?_⟩
    intro other earlier listed before
    cases List.mem_cons.mp listed with
    | inl head => exact unwanted earlier (Prod.mk.inj head).2.symm
    | inr listed => exact leftmost other earlier listed before

/-- Of calls that start one behind the other, the first wins if it declares what is wanted. -/
theorem isLeftmostOf_cons_wanted {first : CallSite} {found block : Block}
    (behind : ∀ visit ∈ visited, first.start < visit.1.start) (wanted : Wanted title found) :
    IsLeftmostOf title ((first, .ok found) :: visited) block ↔ found = block := by
  constructor
  · intro chosen
    obtain ⟨site, member, -, leftmost⟩ := chosen
    cases List.mem_cons.mp member with
    | inl head => exact (Except.ok.inj (Prod.mk.inj head).2).symm
    | inr member =>
      exact absurd wanted (leftmost first found List.mem_cons_self (behind _ member))
  · intro same
    subst same
    refine ⟨first, List.mem_cons_self, wanted, ?_⟩
    intro other earlier listed before
    cases List.mem_cons.mp listed with
    | inl head =>
      rw [(Prod.mk.inj head).1] at before
      exact absurd before (Nat.lt_irrefl _)
    | inr listed => exact absurd (behind _ listed) (Nat.lt_asymm before)

theorem select_eq_ok_iff {block : Block}
    (each : ∀ visit ∈ visited, FailsOnlyBy Error.isNotFound visit.2)
    (increasing : visited.Pairwise fun earlier later => earlier.1.start < later.1.start) :
    select missing title visited = .ok block ↔ IsLeftmostOf title visited block := by
  induction visited with
  | nil => simp [select, IsLeftmostOf]
  | cons visit rest ih =>
    obtain ⟨first, result⟩ := visit
    obtain ⟨behind, increasing⟩ := List.pairwise_cons.mp increasing
    have ih := ih (fun visit member => each visit (List.mem_cons_of_mem _ member)) increasing
    cases result with
    | error error =>
      rw [select, if_pos (each _ List.mem_cons_self error rfl), ih, isLeftmostOf_cons_iff]
      intro found same
      cases same
    | ok found =>
      rw [select]
      by_cases wanted : Wanted title found
      · rw [if_pos (wanted_iff.mp wanted), isLeftmostOf_cons_wanted behind wanted, Except.ok.injEq]
      · rw [if_neg (mt wanted_iff.mpr wanted), ih, isLeftmostOf_cons_iff]
        intro other same
        obtain rfl := Except.ok.inj same
        exact wanted

theorem select_eq_error_iff {error : Error}
    (each : ∀ visit ∈ visited, FailsOnlyBy Error.isNotFound visit.2) :
    select missing title visited = .error error ↔
      error = missing ∧ ∀ site block, (site, .ok block) ∈ visited → ¬ Wanted title block := by
  induction visited with
  | nil => simp [select, eq_comm]
  | cons visit rest ih =>
    obtain ⟨first, result⟩ := visit
    have ih := ih (fun visit member => each visit (List.mem_cons_of_mem _ member))
    cases result with
    | error other =>
      rw [select, if_pos (each _ List.mem_cons_self other rfl), ih]
      simp
    | ok found =>
      rw [select]
      by_cases wanted : Wanted title found
      · rw [if_pos (wanted_iff.mp wanted)]
        refine iff_of_false (fun same => by cases same) ?_
        intro none
        exact none.2 first found List.mem_cons_self wanted
      · rw [if_neg (mt wanted_iff.mpr wanted), ih]
        refine and_congr_right fun _ => ⟨?_, ?_⟩
        · intro none site block listed
          cases List.mem_cons.mp listed with
          | inl head =>
            obtain rfl := Except.ok.inj (Prod.mk.inj head).2
            exact wanted
          | inr listed => exact none site block listed
        · intro none site block listed
          exact none site block (List.mem_cons_of_mem _ listed)

end Select

/-! ## Every call is visited -/

section Lookup

variable {text : Text} {keywords : List Text} {start : Nat} {stop : Option Nat}

/-- A call of one of the names between two offsets: it starts at or behind the first, and its quote
stands before the second. -/
def IsCallIn (text : Text) (keywords : List Text) (start : Nat) (stop : Option Nat)
    (site : CallSite) : Prop :=
  start ≤ site.start ∧ site.StandsIn text keywords (stop.getD text.length)

theorem mem_declarations_of_isCallIn (names : ∀ name ∈ keywords, CallSite.IsCallName name)
    {site : CallSite} (call : IsCallIn text keywords start stop site) :
    (site, read text site stop) ∈ declarations text keywords start stop := by
  obtain ⟨after, stands⟩ := call
  rcases walk_covers names stands after with member | ⟨met, -, -, behind, inside⟩
  · exact member
  · exact absurd inside (Nat.not_lt.mpr behind)

/-- The calls that are visited are those between the offsets, each with what is read there. -/
theorem mem_declarations_iff (given : keywords ≠ [])
    (names : ∀ name ∈ keywords, CallSite.IsCallName name) {site : CallSite}
    {result : Except Error Block} :
    (site, result) ∈ declarations text keywords start stop ↔
      IsCallIn text keywords start stop site ∧ result = read text site stop := by
  constructor
  · intro member
    obtain ⟨same, after, stands⟩ := mem_walk member
    exact ⟨⟨after, stands.mono fun name listed => (CallSite.mem_searchOrder given).mp listed⟩, same⟩
  · intro visited
    obtain ⟨call, rfl⟩ := visited
    exact mem_declarations_of_isCallIn names call

/-- The declaration that is read at the leftmost call where one with the wanted title is read. -/
def IsLeftmost (text : Text) (keywords : List Text) (start : Nat) (stop : Option Nat)
    (title : Option Text) (block : Block) : Prop :=
  ∃ site, IsCallIn text keywords start stop site ∧ read text site stop = .ok block ∧
    Wanted title block ∧
    ∀ other, IsCallIn text keywords start stop other → other.start < site.start →
      ∀ earlier, read text other stop = .ok earlier → ¬ Wanted title earlier

/-- At no call a declaration with the wanted title is read. -/
def IsMissing (text : Text) (keywords : List Text) (start : Nat) (stop : Option Nat)
    (title : Option Text) : Prop :=
  ∀ site, IsCallIn text keywords start stop site →
    ∀ block, read text site stop = .ok block → ¬ Wanted title block

theorem select_declarations {missing : Error} {title : Option Text} (given : keywords ≠ [])
    (names : ∀ name ∈ keywords, CallSite.IsCallName name) :
    (∀ block, select missing title (declarations text keywords start stop) = .ok block ↔
      IsLeftmost text keywords start stop title block) ∧
    ∀ error, select missing title (declarations text keywords start stop) = .error error ↔
      error = missing ∧ IsMissing text keywords start stop title := by
  have visited {site : CallSite} {block : Block} :
      (site, .ok block) ∈ declarations text keywords start stop ↔
        IsCallIn text keywords start stop site ∧ read text site stop = .ok block := by
    rw [mem_declarations_iff given names, @eq_comm _ (Except.ok block)]
  constructor
  · intro block
    rw [select_eq_ok_iff (fun _ => declarations_fail) walk_increasing]
    constructor
    · intro found
      obtain ⟨site, member, wanted, leftmost⟩ := found
      obtain ⟨call, reads⟩ := visited.mp member
      refine ⟨site, call, reads, wanted, ?_⟩
      intro other call' before earlier reads'
      exact leftmost other earlier (visited.mpr ⟨call', reads'⟩) before
    · intro found
      obtain ⟨site, call, reads, wanted, leftmost⟩ := found
      refine ⟨site, visited.mpr ⟨call, reads⟩, wanted, ?_⟩
      intro other earlier member before
      obtain ⟨call', reads'⟩ := visited.mp member
      exact leftmost other call' before earlier reads'
  · intro error
    rw [select_eq_error_iff fun _ => declarations_fail]
    refine and_congr_right fun _ => ⟨?_, ?_⟩
    · intro none site call block reads
      exact none site block (visited.mpr ⟨call, reads⟩)
    · intro none site block member
      obtain ⟨call, reads⟩ := visited.mp member
      exact none site call block reads

/-- With names to look for, the first declaration is read at the leftmost call where one can be read, and a
titled one at the leftmost call where one with exactly that title can. Both are missing only where there is
no such call. The first declaration is also the one that its title finds. -/
theorem lookups_find_leftmost (given : keywords ≠ [])
    (names : ∀ name ∈ keywords, CallSite.IsCallName name) (start : Nat) (stop : Option Nat) :
    (∀ block, first text keywords start stop = .ok block ↔
      IsLeftmost text keywords start stop none block) ∧
    (∀ error, first text keywords start stop = .error error ↔
      error = .undeclared (label keywords) none ∧ IsMissing text keywords start stop none) ∧
    (∀ title block, named text keywords title start stop = .ok block ↔
      IsLeftmost text keywords start stop (some title) block) ∧
    (∀ title error, named text keywords title start stop = .error error ↔
      error = .undeclared (label keywords) (some title) ∧
        IsMissing text keywords start stop (some title)) ∧
    ∀ block, first text keywords start stop = .ok block →
      named text keywords block.title start stop = .ok block := by
  obtain ⟨found, missing⟩ := @select_declarations text keywords start stop
    (.undeclared (label keywords) none) none given names
  have titled (title : Text) := @select_declarations text keywords start stop
    (.undeclared (label keywords) (some title)) (some title) given names
  exact ⟨found, missing, fun title => (titled title).1, fun title => (titled title).2,
    fun block => select_title_of_first⟩

theorem lookups_find_leftmost_decoys :
    let text : Text := "// test('x', () => \x7b\x7d)\n" ++
      "test('y'); mytest('z', f); test ('s', () => \x7b test.only('t', () => \x7b\x7d) \x7d);"
    defaultTestCalls ≠ [] ∧ (∀ name ∈ defaultTestCalls, CallSite.IsCallName name) ∧
      (first text defaultTestCalls 0 none).toOption.map (·.title) = some "s" ∧
      ∃ block, IsLeftmost text defaultTestCalls 0 none (some "t") block ∧
        block.keyword = "test.only" := by
  intro text
  have names : ∀ name ∈ defaultTestCalls, CallSite.IsCallName name := by decide +kernel
  have given : defaultTestCalls ≠ [] := by decide
  obtain ⟨-, -, titled, -⟩ := @lookups_find_leftmost text _ given names 0 none
  refine ⟨given, names, by decide +kernel, ?_⟩
  have found : ((named text defaultTestCalls "t" 0 none).toOption.map (·.keyword)) =
    some "test.only" := by decide +kernel
  obtain ⟨block, same, keyword⟩ := Option.map_eq_some_iff.mp found
  exact ⟨block, (titled "t" block).mp (eq_ok_of_toOption same), keyword⟩

/-- Without names to look for, a parenthesis before a string counts as a call. -/
theorem declaration_found_without_names :
    let text : Text := "('a', () => \x7b\x7d)"
    (first text [] 0 none).toOption.map (·.title) = some "a" ∧
      ∀ site, ¬ IsCallIn text [] 0 none site := by
  refine ⟨by decide +kernel, ?_⟩
  intro site call
  cases call.2.named

end Lookup

end Block

end SuiteDocs
