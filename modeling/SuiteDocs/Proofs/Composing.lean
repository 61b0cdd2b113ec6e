import SuiteDocs.Proofs.Joining
import SuiteDocs.Proofs.Placing

/-!
Annotations of joined bodies.

A line with a semicolon parts two bodies: no call is recognised across it, no literal of the first body
goes on behind it, and to the second body it is like the start of a text. Each body stands in the joined
text with all its calls, so the calls of both are read there one after the other. The first body must
leave nothing open; the second may leave open what it likes.
-/

set_option autoImplicit false

namespace SuiteDocs.Source

open SuiteDocs.Text

theorem isPrefixOf_append {c : Symbol} {name : Text} (absent : c ∉ name) (part rest : Text) :
    name.isPrefixOf (part ++ c :: rest) = name.isPrefixOf part := by
  induction name generalizing part with
  | nil => rfl
  | cons d name ih =>
    obtain ⟨different, absent⟩ := not_or.mp (mt List.mem_cons.mpr absent)
    cases part with
    | nil => simp [List.isPrefixOf, Ne.symm different]
    | cons e part => simp [List.isPrefixOf, ih absent]

theorem Placed.insideLiteral_eq {body text : Text} {start offset : Nat} (placed : Placed body text start)
    (inside : offset < body.length) : insideLiteral text (offset + start) = insideLiteral body offset := by
  obtain ⟨leading, following, scan, rfl⟩ := placed.scan
  have before : (spansAt 0 leading).any (·.contains (offset + (textOf leading).length)) = false := by
    rw [any_contains_eq_false_iff]
    intro span member
    have bounds := ((spansAt_ordered 0 leading).inside span member).2
    omega
  have behind : (spansAt (0 + (textOf leading).length + body.length) following).any
      (·.contains (offset + (textOf leading).length)) = false := by
    rw [any_contains_eq_false_iff]
    intro span member
    have bounds := ((spansAt_ordered _ following).inside span member).1
    omega
  have moved (span : Span) : (Span.shift (textOf leading).length span).contains
      (offset + (textOf leading).length) = span.contains offset := by
    simp only [Span.contains, Span.shift, Nat.add_le_add_iff_right, Nat.add_lt_add_iff_right]
  rw [insideLiteral, literalSpans, scan, spansAt_append, spansAt_append, textOf_pieces, List.any_append,
    List.any_append, before, behind, Bool.false_or, Bool.or_false, spansAt_add, List.any_map]
  exact List.any_congr rfl moved

end SuiteDocs.Source

namespace SuiteDocs.Extraction

open SuiteDocs.Text SuiteDocs.Source

/-! ## Calls at a seam -/

theorem dropWhile_seam (part more : Text) :
    (part ++ (seam ++ more)).dropWhile isBlank =
      match part.dropWhile isBlank with
      | [] => .char ';' :: .char '\n' :: more
      | c :: rest => c :: rest ++ (seam ++ more) := by
  rw [List.dropWhile_append]
  cases part.dropWhile isBlank with
  | nil => rfl
  | cons c rest => rfl

theorem memberLength?_seam {name : Text} (newline : .char '\n' ∉ name)
    (starts : ∃ c ∈ name.head?, c ≠ .char ';') (part more : Text) :
    memberLength? name (part ++ (seam ++ more)) = memberLength? name part := by
  obtain ⟨first, head, other⟩ := starts
  obtain ⟨name, rfl⟩ : ∃ rest, name = first :: rest := by
    cases name with
    | nil => cases head
    | cons d name =>
      obtain rfl := Option.some.inj head
      exact ⟨name, rfl⟩
  unfold memberLength?
  rw [dropWhile_seam]
  cases part.dropWhile isBlank with
  | nil => rfl
  | cons c rest =>
    by_cases dot : c = .char '.'
    · subst dot
      simp only [List.cons_append, dropWhile_seam]
      cases rest.dropWhile isBlank with
      | nil => simp [List.isPrefixOf, other]
      | cons d inner =>
        have prefixed : (first :: name).isPrefixOf (d :: (inner ++ (seam ++ more))) =
            (first :: name).isPrefixOf (d :: inner) := isPrefixOf_append newline (d :: inner) _
        have count : (part ++ (seam ++ more)).length - (d :: (inner ++ (seam ++ more))).length =
            part.length - (d :: inner).length := by
          simp only [List.length_append, List.length_cons]
          omega
        simp only [prefixed, count]
    · simp [dot]

theorem memberLength?_le {name text : Text} {count : Nat} (found : memberLength? name text = some count) :
    count ≤ text.length := by
  obtain ⟨blanks, inner, rest, rfl, -, -, rfl⟩ := exists_of_memberLength? found
  simp only [List.length_append, List.length_cons]
  omega

theorem recogniseCall_seam (previous : Option Symbol) (c : Symbol) (part more : Text) :
    recogniseCall previous c (part ++ (seam ++ more)) = recogniseCall previous c part := by
  unfold recogniseCall
  split
  · dsimp only
    rw [← List.cons_append, memberLength?_seam (by decide) (by decide)]
    cases first : memberLength? ("annotations" : Text) (c :: part) with
    | none => rfl
    | some count =>
      have within := memberLength?_le first
      simp only [Option.bind_eq_bind, Option.bind_some]
      rw [List.drop_append_of_le_length within, memberLength?_seam (by decide) (by decide)]
      cases second : memberLength? ("push" : Text) ((c :: part).drop count) with
      | none => rfl
      | some further =>
        have within' := memberLength?_le second
        simp only [Option.bind_some]
        rw [← List.drop_drop, List.drop_append_of_le_length within,
          List.drop_append_of_le_length within', dropWhile_seam, List.drop_drop]
        cases ((c :: part).drop (count + further)).dropWhile isBlank with
        | nil => rfl
        | cons d inner =>
          by_cases paren : d = .char '('
          · subst paren
            simp only [List.cons_append, List.length_append, Nat.add_sub_add_right]
          · simp [paren]
  · rfl

theorem recogniseCall_le {previous : Option Symbol} {c : Symbol} {rest : Text} {value : Unit} {tail : Nat}
    (found : recogniseCall previous c rest = some (value, tail)) : tail ≤ rest.length := by
  obtain ⟨-, first, second, third, fourth, inner, -, -, -, -, -, count⟩ := exists_of_recogniseCall found
  omega

theorem matchesAt_recogniseCall_seam (first second : Text) :
    matchesAt recogniseCall 0 none (first ++ (seam ++ second)) =
      matchesAt recogniseCall 0 none first ++
        (matchesAt recogniseCall 0 none second).map (Match.shift (first.length + 3)) := by
  have behind (offset : Nat) (previous : Option Symbol) :
      matchesAt recogniseCall offset previous (seam ++ second) =
        matchesAt recogniseCall (offset + 3) (some '\n') second := by
    have shape : seam ++ second = .char '\n' :: .char ';' :: .char '\n' :: second := rfl
    rw [shape, matchesAt, matchesAt, matchesAt]
    rfl
  have moved := @matchesAt_shift _ recogniseCall (fun _ _ _ _ => rfl) 0 (first.length + 3) none
    (some '\n') second
  rw [matchesAt_append (fun previous c part => recogniseCall_seam previous c part second)
    (fun _ _ _ _ _ => recogniseCall_le), behind, Nat.zero_add, ← moved, Nat.zero_add]

/-! ## Calls of joined bodies -/

theorem offset_lt_of_mem_matchesAt {text : Text} {place : Match Unit}
    (member : place ∈ matchesAt recogniseCall 0 none text) : place.offset < text.length := by
  obtain ⟨leading, c, rest, rfl, offset, -⟩ := mem_matchesAt member
  rw [offset, List.length_append, List.length_cons]
  omega

theorem isCode_of_registration {body : Text} {place : Match Unit}
    (member : place ∈ codeMatches recogniseCall body 0 none) :
    IsCode body (place.offset + place.tail) '(' := by
  obtain ⟨part, rest, shape, count, plain⟩ := exists_part_of_registration member
  rw [codeMatches_whole] at member
  obtain ⟨listed, outside⟩ := List.mem_filter.mp member
  obtain ⟨c, code⟩ := (insideLiteral_eq_false_iff (offset_lt_of_mem_matchesAt listed)).mp
    (by simpa using outside)
  have boundary := code.boundary.advance_plain shape plain
  have opens : body.drop (place.offset + part.length) = .char '(' :: rest := by
    rw [← List.drop_drop, shape, List.drop_left]
  rw [count] at boundary opens
  exact boundary.code_of_isPlain opens (by decide)

/-- The calls of a body that stands in a text are found there. -/
theorem filter_matches_placed {body text : Text} {start : Nat} (placed : Placed body text start) :
    ((matchesAt recogniseCall 0 none body).map (Match.shift start)).filter
        (fun place => !insideLiteral text place.offset) =
      (codeMatches recogniseCall body 0 none).map (Match.shift start) := by
  rw [codeMatches_whole, List.filter_map]
  refine congrArg _ (List.filter_congr fun place member => ?_)
  exact congrArg _ (placed.insideLiteral_eq (offset_lt_of_mem_matchesAt member))

/-- What is read of the calls of a body that stands in a text. -/
theorem mapM_ofCall_placed {body text : Text} {start : Nat} (placed : Placed body text start)
    (constants : Constants) (source : Option Text) :
    ((codeMatches recogniseCall body 0 none).map (Match.shift start)).mapM
        (fun place => ofCall text constants source (place.offset + place.tail)) =
      (codeMatches recogniseCall body 0 none).mapM
        fun place => ofCall body constants source (place.offset + place.tail) := by
  rw [List.mapM_map]
  apply mapM_congr
  intro place member
  have same := ofCall_placed placed constants source (isCode_of_registration member)
  rwa [Nat.add_right_comm] at same

theorem annotations_eq_ok_iff {body : Text} {constants : Constants} {source : Option Text}
    {found : List Annotation} :
    (annotations body constants source).outcome = .ok found ↔
      ∃ results, ((codeMatches recogniseCall body 0 none).mapM fun place =>
          ofCall body constants source (place.offset + place.tail)).outcome = .ok results ∧
        results.flatten = found := by
  unfold annotations
  rw [LoggedExcept.outcome_bind, bind_eq_ok_iff]
  refine exists_congr fun results => and_congr_right fun _ => ?_
  dsimp only
  split
  · exact ⟨fun same => Except.ok.inj same, fun same => congrArg Except.ok same⟩
  · exact ⟨fun same => Except.ok.inj same, fun same => congrArg Except.ok same⟩

/-- Bodies joined by a line with a semicolon register the annotations of the first and then those of the
second, if the first closes its strings, its block comments and its brackets. -/
theorem annotations_joined {first : Text} (closed : HasClosedLiterals first)
    (nested : HasNestedCode first) (second : Text) (constants : Constants) (source : Option Text) :
    ∃ found found', (annotations first constants source).outcome = .ok found ∧
      (annotations second constants source).outcome = .ok found' ∧
      (annotations (first ++ (seam ++ second)) constants source).outcome = .ok (found ++ found') := by
  have scan := pieces_joined closed second
  have early : Placed first (first ++ (seam ++ second)) 0 :=
    @placed_of_scan first _ [] _ scan (.inr nested)
  have late : Placed second (first ++ (seam ++ second)) (first.length + 3) := by
    have whole : pieces [] (first ++ (seam ++ second)) =
        (pieces [] first ++ codes seam) ++ (pieces [] second ++ []) := by
      rw [scan, List.append_nil, List.append_assoc]
    have place : (textOf (pieces [] first ++ codes seam)).length = first.length + 3 := by
      rw [textOf_append, textOf_pieces, textOf_codes, List.length_append]
      rfl
    exact place ▸ placed_of_scan whole (.inl rfl)
  have calls : codeMatches recogniseCall (first ++ (seam ++ second)) 0 none =
      (codeMatches recogniseCall first 0 none).map (Match.shift 0) ++
        (codeMatches recogniseCall second 0 none).map (Match.shift (first.length + 3)) := by
    have still : (matchesAt recogniseCall 0 none first).map (Match.shift 0) =
        matchesAt recogniseCall 0 none first := List.map_id _
    rw [← filter_matches_placed early, ← filter_matches_placed late, still, ← List.filter_append,
      ← matchesAt_recogniseCall_seam, codeMatches_whole]
  obtain ⟨found, given⟩ := annotations_total first constants source
  obtain ⟨found', given'⟩ := annotations_total second constants source
  refine ⟨found, found', given, given', ?_⟩
  obtain ⟨results, passed, rfl⟩ := annotations_eq_ok_iff.mp given
  obtain ⟨results', passed', rfl⟩ := annotations_eq_ok_iff.mp given'
  refine annotations_eq_ok_iff.mpr ⟨results ++ results', ?_, List.flatten_append⟩
  rw [calls, List.mapM_append, mapM_ofCall_placed early, mapM_ofCall_placed late,
    LoggedExcept.outcome_bind, passed, ok_bind, LoggedExcept.outcome_bind, passed']
  rfl

/-- A body that ends in what could become a regular expression, and one that starts with one and leaves a
call open. -/
theorem annotations_joined_sample :
    let first : Text := "a.annotations.push(\x7b type: 't', description: \")\" \x7d); b = /c\\"
    let second : Text :=
      "/'/.d; e . annotations . push(\x7btype: f.g, description: `(`\x7d)\nh.annotations.push(\x7b"
    HasClosedLiterals first ∧ HasNestedCode first ∧
      (annotations (first ++ (seam ++ second)) OrderedMap.empty none).outcome =
        .ok [⟨"t", ")"⟩, ⟨"g", "("⟩] := by
  intro first second
  have closed : HasClosedLiterals first := by decide +kernel
  have nested : HasNestedCode first := by decide +kernel
  obtain ⟨found, found', given, given', joined⟩ :=
    annotations_joined closed nested second OrderedMap.empty none
  have early : (annotations first OrderedMap.empty none).outcome = .ok [⟨"t", ")"⟩] :=
    eq_ok_of_toOption (by decide +kernel)
  have late : (annotations second OrderedMap.empty none).outcome = .ok [⟨"g", "("⟩] :=
    eq_ok_of_toOption (by decide +kernel)
  obtain rfl := Except.ok.inj (given.symm.trans early)
  obtain rfl := Except.ok.inj (given'.symm.trans late)
  exact ⟨closed, nested, joined⟩

end SuiteDocs.Extraction
