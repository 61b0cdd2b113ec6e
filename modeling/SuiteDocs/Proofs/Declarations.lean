import SuiteDocs.Block.Basic
import SuiteDocs.Proofs.Logged
import SuiteDocs.Proofs.Nesting
import SuiteDocs.Proofs.Sites

/-!
Declarations in a text whose brackets are well nested.

A declaration that is read lies between the parentheses of its call, and its body between two braces
inside them. The outermost declarations follow one another without overlap, and every call is either
one of them or inside one of them.
-/

set_option autoImplicit false

namespace SuiteDocs

open SuiteDocs.Text SuiteDocs.Source

namespace Block

/-! ## Reading a declaration -/

theorem recover_eq_ok_iff {α : Type} {name : Fault → Error} {result : Except Fault α} {value : α} :
    recover name result = .ok value ↔ result = .ok value := by
  cases result <;> simp [recover]

/-- All that a declaration is read from. -/
theorem read_eq_ok_iff {text : Text} {site : CallSite} {stop : Option Nat} {block : Block} :
    read text site stop = .ok block ↔
      ∃ close first others title bodyStart bodyStop,
        matchingClose text site.openParen = .ok close ∧ (∀ bound ∈ stop, close < bound) ∧
        splitTopLevel text (site.openParen + 1) close (· == ',') = .ok (first :: others) ∧
        literalValue? (slice text first.start first.stop) = some title ∧
        firstBody? text others.reverse = .ok (some bodyStart) ∧
        matchingClose text bodyStart = .ok bodyStop ∧
        block = ⟨site.keyword, title, site.start, close + 1, optionsOf text others, bodyStart,
          bodyStop, slice text (bodyStart + 1) bodyStop⟩ := by
  constructor
  · intro found
    obtain ⟨close, closed, found⟩ := bind_eq_ok_iff.mp found
    split at found
    · cases found
    · rename_i room
      obtain ⟨arguments, split, found⟩ := bind_eq_ok_iff.mp found
      cases arguments with
      | nil => cases found
      | cons first others =>
        cases literal : literalValue? (slice text first.start first.stop) with
        | none => simp [literal] at found
        | some title =>
          simp only [literal] at found
          obtain ⟨body, opened, found⟩ := bind_eq_ok_iff.mp found
          cases body with
          | none => cases found
          | some bodyStart =>
            obtain ⟨bodyStop, bodyClosed, found⟩ := bind_eq_ok_iff.mp found
            refine ⟨close, first, others, title, bodyStart, bodyStop, recover_eq_ok_iff.mp closed,
              ?_, mapError_eq_ok_iff.mp split, literal, mapError_eq_ok_iff.mp opened,
              recover_eq_ok_iff.mp bodyClosed, (Except.ok.inj found).symm⟩
            intro bound member
            obtain rfl := Option.mem_def.mp member
            simpa using room
  · rintro ⟨close, first, others, title, bodyStart, bodyStop, closed, room, split, literal, opened,
      bodyClosed, rfl⟩
    have roomy : ¬ stop.any (· ≤ close) = true := by
      cases stop with
      | none => simp
      | some bound => simpa using room bound rfl
    simp only [read, closed, split, opened, bodyClosed, literal, recover, Except.mapError, bind,
      Except.bind, roomy]
    rfl

/-- The body of a function opens with a brace of code inside the argument. -/
theorem callbackBody?_isCode {text : Text} {span : Span} {brace : Nat}
    (boundary : IsBoundary text span.start)
    (found : callbackBody? text span = .ok (some brace)) :
    IsCode text brace '{' ∧ span.start ≤ brace ∧ brace < span.stop := by
  unfold callbackBody? at found
  cases arrowAt : findTopLevel? text "=>" span.start (some span.stop) with
  | some arrow =>
    simp only [arrowAt, Except.ok.injEq, Option.filter_eq_some_iff, beq_iff_eq] at found
    obtain ⟨next, isBrace⟩ := found
    obtain ⟨code, after, -, follows⟩ := findTopLevel?_isCode boundary arrowAt
    obtain ⟨more, follows⟩ := follows
    have head := code.next.1.code_of_isPlain follows.symm (by decide)
    obtain ⟨braceBoundary, fromArrow, inside⟩ := nextCode?_bounds head.next.1 next
    obtain ⟨rest, shape⟩ : ∃ rest, text.drop brace = .char '{' :: rest := by
      have bound := (List.getElem?_eq_some_iff.mp isBrace).1
      have value := (List.getElem?_eq_some_iff.mp isBrace).2
      exact ⟨_, by rw [List.drop_eq_getElem_cons bound, value]⟩
    exact ⟨braceBoundary.code_of_isPlain shape (by decide), by omega, inside⟩
  | none =>
    simp only [arrowAt] at found
    split at found
    · cases parametersAt : findTopLevel? text "(" span.start (some span.stop) with
      | none => simp [parametersAt] at found
      | some parameters =>
        simp only [parametersAt] at found
        obtain ⟨code, after, -, -⟩ := findTopLevel?_isCode boundary parametersAt
        cases closed : matchingClose text parameters with
        | error fault =>
          simp only [closed] at found
          split at found <;> cases found
        | ok close =>
          simp only [closed, Except.ok.injEq] at found
          have order := matchingClose_gt closed
          have closing := matchingClose_isCode code rfl closed
          obtain ⟨opening, fromClose, inside, -⟩ := findTopLevel?_isCode closing.next.1 found
          exact ⟨opening, by omega, inside _ rfl⟩
    · cases found

theorem firstBody?_isCode {text : Text} {spans : List Span} {brace : Nat}
    (boundaries : ∀ span ∈ spans, IsBoundary text span.start)
    (found : firstBody? text spans = .ok (some brace)) :
    IsCode text brace '{' ∧ ∃ span ∈ spans, span.start ≤ brace ∧ brace < span.stop := by
  induction spans with
  | nil => cases found
  | cons span rest ih =>
    rw [firstBody?] at found
    cases body : callbackBody? text span with
    | error fault => simp [body] at found
    | ok opened =>
      cases opened with
      | none =>
        simp only [body] at found
        obtain ⟨code, other, member, inside⟩ :=
          ih (fun other member => boundaries other (List.mem_cons_of_mem _ member)) found
        exact ⟨code, other, List.mem_cons_of_mem _ member, inside⟩
      | some here =>
        simp only [body, Except.ok.injEq, Option.some.injEq] at found
        subst found
        have inside := callbackBody?_isCode (boundaries span List.mem_cons_self) body
        exact ⟨inside.1, span, List.mem_cons_self, inside.2⟩

/-- Where a declaration that was read lies in its text: its body stands between braces of code,
inside the parentheses of its call. -/
structure LiesIn (block : Block) (text : Text) (site : CallSite) : Prop where
  start_eq : block.start = site.start
  body_eq : block.body = slice text (block.bodyStart + 1) block.bodyStop
  closes : matchingClose text site.openParen = .ok (block.stop - 1)
  parenthesis : IsCode text (block.stop - 1) ')'
  opening : IsCode text block.bodyStart '{'
  closing : IsCode text block.bodyStop '}'
  openParen_lt_bodyStart : site.openParen < block.bodyStart
  bodyStart_lt_bodyStop : block.bodyStart < block.bodyStop
  bodyStop_lt_stop : block.bodyStop + 1 < block.stop

/-- In a well nested text every declaration that is read lies between the parentheses of its call. -/
theorem liesIn_of_read {text : Text} {site : CallSite} {stop : Option Nat} {block : Block}
    (nested : HasNestedCode text) (code : IsCode text site.openParen '(')
    (found : read text site stop = .ok block) :
    block.LiesIn text site ∧ ∀ bound ∈ stop, block.stop ≤ bound := by
  obtain ⟨close, first, others, title, bodyStart, bodyStop, closed, room, split, -, opened,
    bodyClosed, rfl⟩ := read_eq_ok_iff.mp found
  have bounds : ∀ span ∈ first :: others, IsBoundary text span.start ∧
      site.openParen + 1 ≤ span.start ∧ span.stop ≤ close := fun span member =>
    splitTopLevel_bounds code.next.1 split member
  obtain ⟨opening, span, member, after, before⟩ := firstBody?_isCode
    (fun span member => (bounds span (List.mem_cons_of_mem _ (List.mem_reverse.mp member))).1) opened
  obtain ⟨-, fromStart, toStop⟩ := bounds span (List.mem_cons_of_mem _ (List.mem_reverse.mp member))
  have inside := matchingClose_inside nested code rfl closed opening rfl bodyClosed (by omega)
    (by omega)
  refine ⟨⟨rfl, rfl, closed, matchingClose_isCode code rfl closed, opening,
    matchingClose_isCode opening rfl bodyClosed, ?_, matchingClose_gt bodyClosed, ?_⟩, room⟩
  · simp only
    omega
  · simp only
    omega

theorem exists_of_select {missing : Error} {title : Option Text}
    {visited : List (CallSite × Except Error Block)} {block : Block}
    (selected : select missing title visited = .ok block) :
    ∃ site, (site, .ok block) ∈ visited := by
  fun_induction select missing title visited with
  | case1 => cases selected
  | case2 site found rest =>
    obtain rfl := Except.ok.inj selected
    exact ⟨site, List.mem_cons_self⟩
  | case3 _ _ _ _ ih =>
    obtain ⟨site, member⟩ := ih selected
    exact ⟨site, List.mem_cons_of_mem _ member⟩
  | case4 _ _ _ _ ih =>
    obtain ⟨site, member⟩ := ih selected
    exact ⟨site, List.mem_cons_of_mem _ member⟩
  | case5 => cases selected

/-! ## Walks over declaring calls -/

@[simp] theorem Stride.next_into (site : CallSite) : Stride.into.next site = site.openParen + 1 := rfl

@[simp] theorem Stride.next_past (text : Text) (stop : Option Nat) (site : CallSite) :
    (Stride.past text stop).next site = resume site (read text site stop) := rfl

section Walk

variable {text : Text} {keywords : List Text} {stop : Option Nat} {stride : Stride} {start : Nat}

theorem walk_of_none (nothing : CallSite.next? text keywords start stop = none) :
    walk text keywords stop stride start = [] := by
  rw [walk]
  split
  · rfl
  · rename_i found
    rw [nothing] at found
    cases found

theorem walk_of_next? {site : CallSite} (next : CallSite.next? text keywords start stop = some site) :
    walk text keywords stop stride start =
      (site, read text site stop) :: walk text keywords stop stride (stride.next site) := by
  rw [walk]
  split
  · rename_i nothing
    rw [next] at nothing
    cases nothing
  · rename_i other found
    obtain rfl := Option.some.inj (next.symm.trans found)
    rfl

/-- What is met is a call at or behind the start, with what is read there. -/
theorem mem_walk {site : CallSite} {result : Except Error Block}
    (member : (site, result) ∈ walk text keywords stop stride start) :
    result = read text site stop ∧ start ≤ site.start ∧
      site.StandsIn text (CallSite.searchOrder keywords) (stop.getD text.length) := by
  fun_induction walk text keywords stop stride start with
  | case1 start => cases member
  | case2 start found next ih =>
    obtain ⟨after, stands⟩ := CallSite.standsIn_of_next? next
    rcases List.mem_cons.mp member with same | later
    · obtain ⟨rfl, rfl⟩ := Prod.mk.inj same
      exact ⟨rfl, after, stands⟩
    · obtain ⟨isRead, behind, standsLater⟩ := ih later
      have beyond := stride.beyond found
      have order := (CallSite.next?_bounds next).2.1
      exact ⟨isRead, by omega, standsLater⟩

/-- Each call is looked for where the walk goes on from those before it. -/
theorem walk_ordered : (walk text keywords stop stride start).Pairwise fun earlier later =>
    stride.next earlier.1 ≤ later.1.start := by
  fun_induction walk text keywords stop stride start with
  | case1 start => exact .nil
  | case2 start site next ih =>
    refine .cons ?_ ih
    intro later member
    obtain ⟨other, result⟩ := later
    exact (mem_walk member).2.1

theorem walk_increasing : (walk text keywords stop stride start).Pairwise fun earlier later =>
    earlier.1.start < later.1.start := by
  refine walk_ordered.imp_of_mem ?_
  intro earlier later member _ apart
  obtain ⟨site, result⟩ := earlier
  have beyond := stride.beyond site
  have order := (mem_walk member).2.2.start_le
  dsimp only at apart ⊢
  omega

/-- No call is passed over: it is met, or it stands between a call that is met and the place where the
walk goes on from that one. -/
theorem walk_covers (names : ∀ name ∈ keywords, CallSite.IsCallName name) {site : CallSite}
    (stands : site.StandsIn text keywords (stop.getD text.length)) (after : start ≤ site.start) :
    (site, read text site stop) ∈ walk text keywords stop stride start ∨
      ∃ met, (met, read text met stop) ∈ walk text keywords stop stride start ∧
        met.start < site.start ∧ met.openParen < site.start ∧ site.start < stride.next met := by
  have given : keywords ≠ [] := List.ne_nil_of_mem stands.named
  fun_induction walk text keywords stop stride start with
  | case1 start nothing =>
    obtain ⟨found, finds, -⟩ := CallSite.exists_next?_le names stands after
    rw [nothing] at finds
    cases finds
  | case2 start met next ih =>
    obtain ⟨found, finds, notLater⟩ := CallSite.exists_next?_le names stands after
    obtain rfl : met = found := Option.some.inj (next.symm.trans finds)
    have standsMet := (CallSite.standsIn_of_next? next).2.mono fun name member =>
      (CallSite.mem_searchOrder given).mp member
    by_cases beyond : stride.next met ≤ site.start
    · rcases ih beyond with member | ⟨other, member, inside⟩
      · exact .inl (List.mem_cons_of_mem _ member)
      · exact .inr ⟨other, List.mem_cons_of_mem _ member, inside⟩
    · rcases Nat.eq_or_lt_of_le notLater with same | before
      · obtain rfl := standsMet.eq_of_start names stands same
        exact .inl List.mem_cons_self
      · have behind := standsMet.openParen_lt names stands before
        exact .inr ⟨met, List.mem_cons_self, before, behind, Nat.lt_of_not_le beyond⟩

end Walk

/-! ## Outermost declarations -/

/-- Each call is looked for behind the declaration before it. -/
theorem outermost_ordered (text : Text) (keywords : List Text) (start : Nat) (stop : Option Nat) :
    (outermost text keywords start stop).Pairwise fun earlier later =>
      resume earlier.1 earlier.2 ≤ later.1.start := by
  refine walk_ordered.imp_of_mem ?_
  intro earlier later member _ apart
  obtain ⟨site, result⟩ := earlier
  obtain ⟨rfl, -⟩ := mem_walk member
  exact apart

/-- No call is passed over: it is visited, or it lies inside a declaration that was read. -/
theorem outermost_covers {text : Text} {keywords : List Text} {start : Nat} {stop : Option Nat}
    (names : ∀ name ∈ keywords, CallSite.IsCallName name) {site : CallSite}
    (stands : site.StandsIn text keywords (stop.getD text.length)) (after : start ≤ site.start) :
    (∃ result, (site, result) ∈ outermost text keywords start stop) ∨
      ∃ visited block, (visited, .ok block) ∈ outermost text keywords start stop ∧
        visited.start < site.start ∧ site.start < block.stop := by
  rcases walk_covers names stands after with member | ⟨visited, member, before, behind, inside⟩
  · exact .inl ⟨_, member⟩
  · cases result : read text visited stop with
    | error error =>
      rw [Stride.next_past, result, resume] at inside
      omega
    | ok block =>
      rw [Stride.next_past, result, resume] at inside
      rw [result] at member
      exact .inr ⟨visited, block, member, before, inside⟩

end Block

end SuiteDocs
