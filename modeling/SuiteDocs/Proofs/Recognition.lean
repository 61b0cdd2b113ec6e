import SuiteDocs.Extraction
import SuiteDocs.Proofs.Objects
import SuiteDocs.Proofs.Sites

/-!
Recognising the calls that register annotations.

A call is recognised at the dot before its first name, and nowhere inside another one. Strings may
hold anything that looks like a call: where the code has one dot at which a call is recognised, that
call is the only one that is found.
-/

set_option autoImplicit false

namespace SuiteDocs.Text

/-! ## Texts with a separator -/

theorem splitOn_of_not_mem {separator : Symbol} {part : Text} (absent : separator ∉ part) :
    splitOn separator part = [part] := by
  induction part with
  | nil => rfl
  | cons c part ih =>
    obtain ⟨different, absent⟩ := not_or.mp (mt List.mem_cons.mpr absent)
    simp [splitOn, ih absent, Ne.symm different]

theorem splitOn_append {separator : Symbol} {part : Text} (absent : separator ∉ part)
    (rest : Text) :
    splitOn separator (part ++ separator :: rest) = part :: splitOn separator rest := by
  induction part with
  | nil => simp [splitOn]
  | cons c part ih =>
    obtain ⟨different, absent⟩ := not_or.mp (mt List.mem_cons.mpr absent)
    simp [splitOn, ih absent, Ne.symm different]

theorem afterLast_append {separator : Symbol} {part : Text} (absent : separator ∉ part)
    (before : Text) : afterLast separator (before ++ separator :: part) = part := by
  have kept : ∀ c ∈ part.reverse, (c != separator) = true := by
    intro c member
    rw [bne_iff_ne]
    rintro rfl
    exact absent (List.mem_reverse.mp member)
  rw [afterLast, List.reverse_append, List.reverse_cons, List.append_assoc,
    List.takeWhile_append_of_pos kept, List.singleton_append,
    List.takeWhile_cons_of_neg (by simp), List.append_nil, List.reverse_reverse]

end SuiteDocs.Text

namespace SuiteDocs.Extraction

open SuiteDocs.Text SuiteDocs.Source

/-! ## Recognising the call -/

theorem exists_of_memberLength? {name text : Text} {count : Nat}
    (found : memberLength? name text = some count) :
    ∃ blanks inner rest, text = blanks ++ .char '.' :: (inner ++ (name ++ rest)) ∧
      (∀ c ∈ blanks, isBlank c = true) ∧ (∀ c ∈ inner, isBlank c = true) ∧
      count = blanks.length + 1 + inner.length + name.length := by
  unfold memberLength? at found
  split at found
  · rename_i after dropped
    simp only at found
    split at found
    · rename_i starts
      obtain ⟨rest, shape⟩ := List.isPrefixOf_iff_prefix.mp starts
      obtain ⟨blanks, outer, blank⟩ := exists_blanks dropped
      obtain ⟨inner, within, blankInner⟩ := exists_blanks shape.symm
      refine ⟨blanks, inner, rest, by rw [outer, within], blank, blankInner, ?_⟩
      have outerLength := congrArg List.length outer
      have innerLength := congrArg List.length within
      have restLength := congrArg List.length shape
      have counted := Option.some.inj found
      rw [List.length_append, List.length_cons] at outerLength
      rw [List.length_append, List.length_append] at innerLength
      rw [List.length_append] at restLength
      omega
    · cases found
  · cases found

/-- A dot and a name without white space between them. -/
theorem memberLength?_eq {name rest : Text} (solid : ∃ c ∈ name.head?, isBlank c = false) :
    memberLength? name (.char '.' :: (name ++ rest)) = some (name.length + 1) := by
  obtain ⟨c, head, solid⟩ := solid
  have stays : (name ++ rest).dropWhile isBlank = name ++ rest := by
    cases name with
    | nil => cases head
    | cons d name =>
      obtain rfl := Option.some.inj head
      exact List.dropWhile_cons_of_neg (by simp [solid])
  have dot : (.char '.' :: (name ++ rest)).dropWhile isBlank = .char '.' :: (name ++ rest) :=
    List.dropWhile_cons_of_neg (by decide)
  have starts : name.isPrefixOf (name ++ rest) = true :=
    List.isPrefixOf_iff_prefix.mpr (List.prefix_append _ _)
  simp only [memberLength?, dot, stays, starts, if_true, List.length_cons]
  congr 1
  omega

theorem drop_member (blanks inner name rest : Text) :
    (blanks ++ .char '.' :: (inner ++ (name ++ rest))).drop
      (blanks.length + 1 + inner.length + name.length) = rest := by
  have parts : blanks ++ .char '.' :: (inner ++ (name ++ rest)) =
      (blanks ++ .char '.' :: (inner ++ name)) ++ rest := by simp
  have count : blanks.length + 1 + inner.length + name.length =
      (blanks ++ .char '.' :: (inner ++ name)).length := by
    rw [List.length_append, List.length_cons, List.length_append]
    omega
  rw [parts, count, List.drop_left]

/-- What is recognised: the two names behind dots and a parenthesis, with white space between. -/
theorem exists_of_recogniseCall {previous : Option Symbol} {c : Symbol} {rest : Text} {tail : Nat}
    (found : recogniseCall previous c rest = some ((), tail)) :
    c = .char '.' ∧ ∃ first second third fourth inner : Text,
      rest = first ++ (("annotations" : Text) ++ (second ++ .char '.' :: (third ++
        (("push" : Text) ++ (fourth ++ .char '(' :: inner))))) ∧
      (∀ d ∈ first, isBlank d = true) ∧ (∀ d ∈ second, isBlank d = true) ∧
      (∀ d ∈ third, isBlank d = true) ∧ (∀ d ∈ fourth, isBlank d = true) ∧
      tail + inner.length = rest.length := by
  unfold recogniseCall at found
  split at found
  · rename_i dot
    obtain rfl := beq_iff_eq.mp dot
    refine ⟨rfl, ?_⟩
    simp only [Option.bind_eq_bind, Option.bind_eq_some_iff] at found
    obtain ⟨annotations, isAnnotations, push, isPush, found⟩ := found
    obtain ⟨blanks, first, after, shape, blank, blankFirst, rfl⟩ :=
      exists_of_memberLength? isAnnotations
    have noBlanks : blanks = [] := by
      cases blanks with
      | nil => rfl
      | cons d blanks =>
        obtain ⟨rfl, -⟩ := List.cons.inj shape
        exact absurd (blank _ List.mem_cons_self) (by decide)
    subst noBlanks
    obtain rfl : rest = first ++ (("annotations" : Text) ++ after) := (List.cons.inj shape).2
    have dropped := drop_member [] first "annotations" after
    rw [List.nil_append] at dropped
    rw [dropped] at isPush
    rw [← List.drop_drop, dropped] at found
    obtain ⟨second, third, after', rfl, blankSecond, blankThird, rfl⟩ :=
      exists_of_memberLength? isPush
    rw [drop_member second third "push" after'] at found
    split at found
    · rename_i inner opened
      obtain ⟨fourth, rfl, blankFourth⟩ := exists_blanks opened
      refine ⟨first, second, third, fourth, inner, rfl, blankFirst, blankSecond, blankThird,
        blankFourth, ?_⟩
      obtain ⟨-, counted⟩ := Prod.mk.inj (Option.some.inj found)
      rw [← counted]
      refine Nat.sub_add_cancel ?_
      simp only [List.length_append, List.length_cons]
      omega
    · cases found
  · cases found

/-- The call without white space is recognised up to its parenthesis. -/
theorem recogniseCall_eq (previous : Option Symbol) (inner : Text) :
    recogniseCall previous (.char '.') (("annotations.push(" : Text) ++ inner) =
      some ((), ("annotations.push(" : Text).length) := by
  have shape : (.char '.' :: (("annotations.push(" : Text) ++ inner) : Text) =
      .char '.' :: (("annotations" : Text) ++ (.char '.' :: (("push" : Text) ++
        (.char '(' :: inner)))) := rfl
  have first : memberLength? ("annotations" : Text)
      (.char '.' :: (("annotations.push(" : Text) ++ inner)) = some 12 := by
    rw [shape]
    exact memberLength?_eq (by decide)
  have second : memberLength? ("push" : Text)
      ((.char '.' :: (("annotations.push(" : Text) ++ inner)).drop 12) = some 5 := by
    have rest : (.char '.' :: (("annotations.push(" : Text) ++ inner)).drop 12 =
        .char '.' :: (("push" : Text) ++ (.char '(' :: inner)) := rfl
    rw [rest]
    exact memberLength?_eq (by decide)
  have opened : ((.char '.' :: (("annotations.push(" : Text) ++ inner)).drop (12 + 5)).dropWhile
      isBlank = .char '(' :: inner :=
    List.dropWhile_cons_of_neg (by decide)
  have count : (("annotations.push(" : Text) ++ inner).length - inner.length =
      ("annotations.push(" : Text).length := by
    rw [List.length_append, Nat.add_sub_cancel]
  simp only [recogniseCall, first, second, opened, count, Option.bind_eq_bind, Option.bind_some,
    beq_self_eq_true, if_true]

/-- A symbol that stands once in a part of a text marks one place of that part. -/
theorem eq_of_once {c : Symbol} {before behind rest before' rest' : Text} (absent : c ∉ before)
    (absent' : c ∉ behind) (same : before ++ c :: (behind ++ rest) = before' ++ c :: rest')
    (near : before'.length < before.length + 1 + behind.length) : rest' = behind ++ rest := by
  rcases List.append_eq_append_iff.mp same with ⟨between, rfl, tail⟩ | ⟨between, rfl, tail⟩
  · cases between with
    | nil => exact (List.cons.inj tail).2.symm
    | cons d between =>
      rw [List.cons_append] at tail
      obtain ⟨rfl, behind'⟩ := List.cons.inj tail
      rcases List.append_eq_append_iff.mp behind' with ⟨more, rfl, -⟩ | ⟨more, rfl, ends⟩
      · rw [List.length_append, List.length_cons, List.length_append] at near
        omega
      · cases more with
        | nil =>
          rw [List.length_append, List.length_cons, List.append_nil] at near
          omega
        | cons e more =>
          obtain ⟨rfl, -⟩ := List.cons.inj ends
          exact absurd (List.mem_append_right _ List.mem_cons_self) absent'
  · cases between with
    | nil => exact (List.cons.inj tail).2
    | cons d between =>
      obtain ⟨rfl, -⟩ := List.cons.inj tail
      exact absurd (List.mem_append_right _ List.mem_cons_self) absent

/-- A dot before another name than the first one begins no call. -/
theorem recogniseCall_eq_none {previous : Option Symbol} {blanks more : Text} {c : Symbol}
    (blank : ∀ d ∈ blanks, isBlank d = true) (solid : isBlank c = false) (other : c ≠ .char 'a') :
    recogniseCall previous (.char '.') (blanks ++ c :: more) = none := by
  rw [Option.eq_none_iff_forall_ne_some]
  rintro ⟨⟨⟩, tail⟩ recognised
  obtain ⟨-, first, second, third, fourth, inner, shape, blankFirst, -⟩ :=
    exists_of_recogniseCall recognised
  have dropped := congrArg (List.dropWhile isBlank) shape
  rw [List.dropWhile_append_of_pos blank, List.dropWhile_append_of_pos blankFirst,
    List.dropWhile_cons_of_neg (by simp [solid])] at dropped
  exact other (List.cons.inj dropped).1

theorem recogniseCall_other {previous : Option Symbol} {c : Symbol} {more : Text}
    (solid : isBlank c = false) (other : c ≠ .char 'a') :
    recogniseCall previous (.char '.') (c :: more) = none :=
  recogniseCall_eq_none isBlank_nil solid other

theorem dot_not_mem_of_blank {blanks : Text} (blank : ∀ c ∈ blanks, isBlank c = true) :
    .char '.' ∉ blanks := fun member => absurd (blank _ member) (by decide)

/-- Inside a recognised call no other call is recognised: the only other dot stands before the
second name. -/
theorem separates_recogniseCall : Separates recogniseCall := by
  rintro previous c rest ⟨⟩ tail recognised between d more rfl near
  by_cases dot : d = .char '.'
  · subst dot
    obtain ⟨-, first, second, third, fourth, inner, shape, blank, blank', blank'', blank''',
      count⟩ := exists_of_recogniseCall recognised
    have parts : (first ++ (("annotations" : Text) ++ second)) ++ .char '.' ::
        ((third ++ (("push" : Text) ++ (fourth ++ [.char '(']))) ++ inner) =
          between ++ .char '.' :: more := by
      rw [shape]
      simp
    have lengths := congrArg List.length parts
    have next : more = (third ++ (("push" : Text) ++ (fourth ++ [.char '(']))) ++ inner := by
      refine eq_of_once ?_ ?_ parts ?_
      · simp only [List.mem_append, not_or]
        exact ⟨dot_not_mem_of_blank blank, by decide, dot_not_mem_of_blank blank'⟩
      · simp only [List.mem_append, not_or]
        exact ⟨dot_not_mem_of_blank blank'', by decide, dot_not_mem_of_blank blank''', by decide⟩
      · simp only [List.length_append, List.length_cons] at lengths count ⊢
        omega
    rw [next, List.append_assoc]
    exact recogniseCall_eq_none blank'' (by decide) (by decide)
  · simp [recogniseCall, dot]

/-! ## Finding the call -/

/-- At no dot among the code of a passage is a call recognised, if the given text follows. -/
def Quiet (part : List Piece) (after : Text) : Prop :=
  ∀ left right, part = left ++ .code '.' :: right →
    ∀ previous, recogniseCall previous (.char '.') (textOf right ++ after) = none

theorem quiet_of_not_mem {part : List Piece} (absent : .char '.' ∉ codeOf part) (after : Text) :
    Quiet part after := by
  rintro left right rfl
  exact absurd (by simp) absent

theorem Quiet.append {first second : List Piece} {after : Text}
    (quiet : Quiet first (textOf second ++ after)) (quiet' : Quiet second after) :
    Quiet (first ++ second) after := by
  intro left right same previous
  rcases List.append_eq_append_iff.mp same with ⟨between, rfl, rest⟩ | ⟨between, rfl, rest⟩
  · exact quiet' between right rest previous
  · cases between with
    | nil => exact quiet' [] right rest.symm previous
    | cons piece between =>
      rw [List.cons_append] at rest
      obtain ⟨rfl, rfl⟩ := List.cons.inj rest
      have here := quiet left between rfl previous
      rwa [textOf_append, List.append_assoc]

/-- Where a call is recognised, it is the one between the quiet passages. -/
theorem eq_of_recognised {before behind left right : List Piece} {previous : Option Symbol}
    {found : Unit × Nat} (quiet : Quiet before (.char '.' :: textOf behind))
    (quiet' : Quiet behind [])
    (cut : before ++ .code '.' :: behind = left ++ .code '.' :: right)
    (finds : recogniseCall previous (.char '.') (textOf right) = some found) :
    left = before ∧ right = behind := by
  rcases List.append_eq_append_iff.mp cut with ⟨between, rfl, ends⟩ | ⟨between, rfl, ends⟩
  · cases between with
    | nil => exact ⟨List.append_nil _, (List.cons.inj ends).2.symm⟩
    | cons piece between =>
      rw [List.cons_append] at ends
      obtain ⟨rfl, later⟩ := List.cons.inj ends
      have nothing := quiet' between right later previous
      rw [List.append_nil, finds] at nothing
      cases nothing
  · cases between with
    | nil => exact ⟨(List.append_nil _).symm, (List.cons.inj ends).2⟩
    | cons piece between =>
      rw [List.cons_append] at ends
      obtain ⟨rfl, rfl⟩ := List.cons.inj ends
      have nothing := quiet left between rfl previous
      rw [← textOf_code, ← textOf_append, finds] at nothing
      cases nothing

theorem eq_singleton_of_forall_eq {α : Type} {found : List (Match α)} {place : Match α}
    (increasing : found.Pairwise (·.offset < ·.offset)) (member : place ∈ found)
    (all : ∀ other ∈ found, other = place) : found = [place] := by
  cases found with
  | nil => cases member
  | cons first rest =>
    obtain rfl := all first List.mem_cons_self
    cases rest with
    | nil => rfl
    | cons second rest =>
      have same := all second (by simp)
      have order := List.rel_of_pairwise_cons increasing List.mem_cons_self
      rw [same] at order
      exact absurd order (Nat.lt_irrefl _)

/-- Without a dot there is no call. -/
theorem codeMatches_eq_nil {text : Text} (noDot : .char '.' ∉ text) :
    codeMatches recogniseCall text 0 none = [] := by
  rw [List.eq_nil_iff_forall_not_mem]
  intro place member
  obtain ⟨leading, c, rest, shape, -, finds⟩ := mem_matchesAt (List.mem_filter.mp member).1
  have listed : c ∈ slice text 0 ((none : Option Nat).getD text.length) := by
    rw [shape]
    exact List.mem_append_right _ List.mem_cons_self
  rw [(exists_of_recogniseCall finds).1] at listed
  exact noDot (List.mem_of_mem_drop (List.mem_of_mem_take listed))

/-- A call that is found stands at a dot among the code. -/
theorem exists_cut_of_mem_codeMatches {parts : List Piece} {place : Match Unit}
    (stable : ∀ piece ∈ parts, piece.Stable)
    (member : place ∈ codeMatches recogniseCall (textOf parts) 0 none) :
    ∃ left right previous, parts = left ++ .code '.' :: right ∧
      place.offset = (textOf left).length ∧
      recogniseCall previous (.char '.') (textOf right) = some ((), place.tail) := by
  rw [codeMatches_whole] at member
  obtain ⟨listed, outside⟩ := List.mem_filter.mp member
  obtain ⟨leading, c, rest, shape, offset, finds⟩ := mem_matchesAt listed
  rw [Nat.zero_add] at offset
  obtain rfl := (exists_of_recogniseCall finds).1
  have inside : place.offset < (textOf parts).length := by
    rw [shape, offset, List.length_append, List.length_cons]
    omega
  -- The place is outside all literals, so that a piece of code starts there.
  obtain ⟨c, code⟩ := (insideLiteral_eq_false_iff inside).mp (by simpa using outside)
  obtain ⟨left, cut, count⟩ := code.boundary.scan
  have seen := code.drop
  rw [shape, offset, List.drop_left] at seen
  obtain ⟨rfl, follows⟩ := List.cons.inj seen
  rw [pieces_of_stable stable, code.next.2] at cut
  refine ⟨left, _, lastBefore none leading, cut, count.symm, ?_⟩
  rw [textOf_piecesFrom, shape, offset, ← follows]
  exact finds

/-- A call between passages in which none is recognised is the only one that is found. -/
theorem codeMatches_eq_singleton {before behind : List Piece} {tail : Nat}
    (stable : ∀ piece ∈ before ++ .code '.' :: behind, piece.Stable)
    (recognised : ∀ previous, recogniseCall previous (.char '.') (textOf behind) = some ((), tail))
    (quiet : Quiet before (.char '.' :: textOf behind)) (quiet' : Quiet behind []) :
    codeMatches recogniseCall (textOf (before ++ .code '.' :: behind)) 0 none =
      [⟨(textOf before).length, (), tail⟩] := by
  have increasing : (codeMatches recogniseCall (textOf (before ++ .code '.' :: behind)) 0
      none).Pairwise (·.offset < ·.offset) := by
    rw [codeMatches_whole]
    exact (matchesAt_increasing _ _ _).filter _
  refine eq_singleton_of_forall_eq increasing ?_ ?_
  · have stands : Stands (textOf (before ++ .code '.' :: behind)) (textOf before).length
        (.code '.' :: behind) := by
      have right := (stands_textOf stable).right
      rwa [Nat.zero_add] at right
    have outside := (insideLiteral_eq_false_iff stands.isCode.lt).mpr ⟨_, stands.isCode⟩
    have found := mem_matchesAt_of_recognise separates_recogniseCall 0 none (textOf before)
      (recognised _)
    rw [Nat.zero_add, ← textOf_code, ← textOf_append] at found
    rw [codeMatches_whole]
    exact List.mem_filter.mpr ⟨found, by simpa using outside⟩
  · intro place member
    obtain ⟨left, right, previous, cut, offset, finds⟩ := exists_cut_of_mem_codeMatches stable member
    obtain ⟨rfl, rfl⟩ := eq_of_recognised quiet quiet' cut finds
    rw [recognised] at finds
    obtain ⟨-, tails⟩ := Prod.mk.inj (Option.some.inj finds)
    calc place = ⟨place.offset, (), place.tail⟩ := rfl
      _ = _ := by rw [offset, ← tails]

theorem Quiet.dot {part : List Piece} {after : Text}
    (unrecognised : ∀ previous, recogniseCall previous (.char '.') (textOf part ++ after) = none)
    (quiet : Quiet part after) : Quiet (.code '.' :: part) after := by
  intro left right same previous
  cases left with
  | nil =>
    obtain ⟨-, rfl⟩ := List.cons.inj same
    exact unrecognised previous
  | cons piece left => exact quiet left right (List.cons.inj same).2 previous

theorem Quiet.separated {trail lead : Text} {first : List Piece} {rest : List (List Piece)}
    (blankTrail : ∀ c ∈ trail, isBlank c = true) (blankLead : ∀ c ∈ lead, isBlank c = true)
    (each : ∀ part ∈ first :: rest, ∀ after, Quiet part after) (after : Text) :
    Quiet (separated trail lead first rest) after := by
  have blanks {text : Text} (blank : ∀ c ∈ text, isBlank c = true) (after : Text) :
      Quiet (codes text) after :=
    quiet_of_not_mem (by rw [codeOf_codes]; exact dot_not_mem_of_blank blank) after
  induction rest generalizing lead first with
  | nil =>
    exact (blanks blankLead _).append
      ((each first List.mem_cons_self _).append (blanks blankTrail after))
  | cons second rest ih =>
    have comma : Quiet [.code ',']
        (textOf (Source.separated trail [.char ' '] second rest) ++ after) :=
      quiet_of_not_mem (by decide) _
    have later := ih (by decide : ∀ c ∈ [Symbol.char ' '], isBlank c = true)
      fun part member => each part (List.mem_cons_of_mem _ member)
    exact (blanks blankLead _).append ((each first List.mem_cons_self _).append
      (comma.append later))

/-- A member name is no call: a comma follows it. -/
theorem recogniseCall_member {name : Text} (identifier : isIdentifier name = true)
    (previous : Option Symbol) (more : Text) :
    recogniseCall previous (.char '.') (name ++ .char ',' :: more) = none := by
  have parts := isNamePart_of_isIdentifier identifier
  rw [Option.eq_none_iff_forall_ne_some]
  rintro ⟨⟨⟩, tail⟩ recognised
  obtain ⟨-, first, second, third, fourth, inner, shape, blankFirst, blankSecond, -⟩ :=
    exists_of_recogniseCall recognised
  have noBlanks : first = [] := by
    cases first with
    | nil => rfl
    | cons d first =>
      obtain ⟨⟨c, rest, rfl, solid⟩, -⟩ := solid_of_isIdentifier identifier
      obtain ⟨rfl, -⟩ := List.cons.inj shape
      rw [blankFirst c List.mem_cons_self] at solid
      cases solid
  subst noBlanks
  have annotations : ∀ c ∈ ("annotations" : Text), isNamePart c = true := by decide
  have dropped := congrArg (List.dropWhile isNamePart) shape
  rw [List.nil_append, List.dropWhile_append_of_pos parts,
    List.dropWhile_append_of_pos annotations, List.dropWhile_cons_of_neg (by decide)] at dropped
  cases second with
  | nil =>
    rw [List.nil_append, List.dropWhile_cons_of_neg (by decide)] at dropped
    exact absurd (List.cons.inj dropped).1 (by decide)
  | cons d second =>
    have blank := blankSecond d List.mem_cons_self
    rw [List.cons_append,
      List.dropWhile_cons_of_neg (by simp [isNamePart_of_isBlank blank])] at dropped
    obtain ⟨rfl, -⟩ := List.cons.inj dropped
    exact absurd blank (by decide)

end SuiteDocs.Extraction
