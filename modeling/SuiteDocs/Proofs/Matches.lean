import SuiteDocs.Proofs.Spans

/-!
The matches of a recogniser from left to right.

A match hides the places that it covers from the matches after it. Two conditions under which this
does no harm are kept apart: no match covers a certain symbol, so that the search starts anew behind
it; or no place that a match covers is recognised by itself, so that every recognised place is found.
-/

set_option autoImplicit false

namespace SuiteDocs.Source

open SuiteDocs.Text

variable {α : Type} {recognise : Recogniser α}

/-- The symbol before a place, given what stands between it and an earlier place, and the symbol
before that one. -/
def lastBefore (previous : Option Symbol) (between : Text) : Option Symbol :=
  between.foldl (fun _ c => some c) previous

@[simp] theorem lastBefore_nil (previous : Option Symbol) : lastBefore previous [] = previous := rfl

@[simp] theorem lastBefore_cons (previous : Option Symbol) (c : Symbol) (between : Text) :
    lastBefore previous (c :: between) = lastBefore (some c) between := rfl

theorem lastBefore_append (previous : Option Symbol) (left right : Text) :
    lastBefore previous (left ++ right) = lastBefore (lastBefore previous left) right :=
  List.foldl_append

theorem getLast?_cons_eq_lastBefore (c : Symbol) (between : Text) :
    (c :: between).getLast? = lastBefore (some c) between := by
  induction between generalizing c with
  | nil => rfl
  | cons d between ih => rw [List.getLast?_cons_cons, ih, lastBefore_cons]

/-- A match is what the recogniser makes of its place, with the symbol before that place in view. -/
theorem mem_matchesAt {offset : Nat} {previous : Option Symbol} {text : Text} {found : Match α}
    (member : found ∈ matchesAt recognise offset previous text) :
    ∃ leading c rest, text = leading ++ c :: rest ∧ found.offset = offset + leading.length ∧
      recognise (lastBefore previous leading) c rest = some (found.value, found.tail) := by
  fun_induction matchesAt recognise offset previous text with
  | case1 => cases member
  | case2 offset previous c rest unrecognised ih =>
    obtain ⟨leading, d, more, rfl, place, recognised⟩ := ih member
    refine ⟨c :: leading, d, more, rfl, ?_, recognised⟩
    rw [place, List.length_cons]
    omega
  | case3 offset previous c rest value tail recognised ih =>
    rcases List.mem_cons.mp member with rfl | member
    · exact ⟨[], c, rest, rfl, rfl, recognised⟩
    · obtain ⟨leading, d, more, shape, place, later⟩ := ih member
      have inside : tail ≤ rest.length := by
        by_contra beyond
        rw [List.drop_eq_nil_of_le (by omega)] at shape
        simp at shape
      refine ⟨c :: rest.take tail ++ leading, d, more, ?_, ?_, ?_⟩
      · rw [List.append_assoc, ← shape, List.cons_append, List.take_append_drop]
      · rw [place, List.length_append, List.length_cons, List.length_take_of_le inside]
        omega
      · rw [lastBefore_append, lastBefore_cons, ← getLast?_cons_eq_lastBefore]
        exact later

theorem le_length_of_not_mem_take {barrier : Symbol} {leading following : Text} {tail : Nat}
    (uncovered : barrier ∉ (leading ++ barrier :: following).take tail) : tail ≤ leading.length := by
  by_contra beyond
  obtain ⟨more, rfl⟩ := Nat.exists_eq_add_of_lt (Nat.lt_of_not_le beyond)
  rw [Nat.add_assoc, List.take_length_add_append, List.take_succ_cons] at uncovered
  exact uncovered (List.mem_append_right leading List.mem_cons_self)

/-- If no match covers `barrier`, the search behind one does not depend on what stands before it. -/
theorem matchesAt_barrier {barrier : Symbol}
    (uncovered : ∀ previous c rest value tail,
      recognise previous c rest = some (value, tail) → barrier ∉ c :: rest.take tail)
    (offset : Nat) (previous : Option Symbol) (leading following : Text) :
    ∃ early, matchesAt recognise offset previous (leading ++ barrier :: following) =
        early ++ matchesAt recognise (offset + leading.length + 1) (some barrier) following ∧
      ∀ found ∈ early, offset ≤ found.offset ∧ found.offset < offset + leading.length := by
  induction size : leading.length using Nat.strongRecOn generalizing offset previous leading with
  | ind size ih =>
    subst size
    cases leading with
    | nil =>
      refine ⟨[], ?_, by simp⟩
      rw [List.nil_append, matchesAt]
      split
      · rfl
      · rename_i value tail recognised
        exact absurd List.mem_cons_self (uncovered _ _ _ _ _ recognised)
    | cons c leading =>
      rw [List.cons_append, matchesAt]
      split
      · obtain ⟨early, same, bounds⟩ :=
          ih leading.length (by simp) (offset + 1) (some c) leading rfl
        refine ⟨early, ?_, ?_⟩
        · rw [same, List.length_cons]
          congr 2
          omega
        · intro found member
          have := bounds found member
          rw [List.length_cons]
          omega
      · rename_i value tail recognised
        have short : tail ≤ leading.length :=
          le_length_of_not_mem_take (List.not_mem_of_not_mem_cons (uncovered _ _ _ _ _ recognised))
        have shorter : (leading.drop tail).length < (c :: leading).length := by
          rw [List.length_drop, List.length_cons]
          omega
        obtain ⟨early, same, bounds⟩ := ih (leading.drop tail).length shorter (offset + tail + 1)
          ((c :: (leading ++ barrier :: following).take tail).getLast?) (leading.drop tail) rfl
        refine ⟨⟨offset, value, tail⟩ :: early, ?_, ?_⟩
        · rw [List.drop_append_of_le_length short, same, List.length_drop, List.length_cons,
            List.cons_append]
          congr 3
          omega
        · intro found member
          rw [List.length_cons]
          rcases List.mem_cons.mp member with rfl | member
          · exact ⟨Nat.le_refl _, by simp⟩
          · have := bounds found member
            rw [List.length_drop] at this
            omega

/-- What follows a text that no match of it reaches beyond is searched by itself. -/
theorem matchesAt_append {more : Text}
    (same : ∀ previous c inner, recognise previous c (inner ++ more) = recognise previous c inner)
    (within : ∀ previous c inner value tail, recognise previous c inner = some (value, tail) →
      tail ≤ inner.length)
    (offset : Nat) (previous : Option Symbol) (text : Text) :
    matchesAt recognise offset previous (text ++ more) = matchesAt recognise offset previous text ++
      matchesAt recognise (offset + text.length) (lastBefore previous text) more := by
  fun_induction matchesAt recognise offset previous text with
  | case1 => rfl
  | case2 offset previous c rest unrecognised ih =>
    rw [List.cons_append, matchesAt, same, unrecognised, lastBefore_cons, List.length_cons,
      Nat.add_comm rest.length, ← Nat.add_assoc]
    exact ih
  | case3 offset previous c rest value tail recognised ih =>
    have inside := within _ _ _ _ _ recognised
    have place : offset + (c :: rest).length = offset + tail + 1 + (rest.drop tail).length := by
      rw [List.length_cons, List.length_drop]
      omega
    have last : lastBefore previous (c :: rest) =
        lastBefore (c :: rest.take tail).getLast? (rest.drop tail) := by
      rw [getLast?_cons_eq_lastBefore, lastBefore_cons, ← lastBefore_append, List.take_append_drop]
    rw [List.cons_append, matchesAt, same, recognised, place, last, List.cons_append]
    dsimp only
    rw [List.take_append_of_le_length inside, List.drop_append_of_le_length inside, ih]

/-- The same match further on. -/
def Match.shift (count : Nat) (place : Match α) : Match α :=
  { place with offset := place.offset + count }

/-- A recogniser that does not look back finds the same wherever a text stands. -/
theorem matchesAt_shift
    (blind : ∀ previous previous' c rest, recognise previous' c rest = recognise previous c rest)
    (offset count : Nat) (previous previous' : Option Symbol) (text : Text) :
    matchesAt recognise (offset + count) previous' text =
      (matchesAt recognise offset previous text).map (Match.shift count) := by
  fun_induction matchesAt recognise offset previous text generalizing previous' with
  | case1 => rw [matchesAt]; rfl
  | case2 offset previous c rest unrecognised ih =>
    rw [matchesAt, blind previous, unrecognised]
    dsimp only
    rw [← ih, Nat.add_right_comm]
  | case3 offset previous c rest value tail recognised ih =>
    have next : offset + count + tail + 1 = offset + tail + 1 + count := by omega
    rw [matchesAt, blind previous, recognised, List.map_cons]
    dsimp only
    rw [next, ih]
    rfl

/-- No place that a match covers, but its first, is recognised by itself. -/
def Separates (recognise : Recogniser α) : Prop :=
  ∀ previous c rest value tail, recognise previous c rest = some (value, tail) →
    ∀ between d more, rest = between ++ d :: more → between.length < tail →
      recognise (lastBefore (some c) between) d more = none

/-- A recogniser whose matches hide nothing finds every place that it recognises. -/
theorem mem_matchesAt_of_recognise (separates : Separates recognise) {value : α} {tail : Nat}
    {c : Symbol} {rest : Text} (offset : Nat) (previous : Option Symbol) (leading : Text)
    (recognised : recognise (lastBefore previous leading) c rest = some (value, tail)) :
    ⟨offset + leading.length, value, tail⟩ ∈
      matchesAt recognise offset previous (leading ++ c :: rest) := by
  induction size : leading.length using Nat.strongRecOn generalizing offset previous leading with
  | ind size ih =>
    subst size
    cases leading with
    | nil =>
      rw [List.nil_append, matchesAt]
      rw [lastBefore_nil] at recognised
      rw [recognised]
      exact List.mem_cons_self
    | cons d leading =>
      rw [List.cons_append, matchesAt]
      split
      · have member := ih leading.length (by simp) (offset + 1) (some d) leading recognised rfl
        rwa [List.length_cons,
          show offset + (leading.length + 1) = offset + 1 + leading.length by omega]
      · rename_i covering count covered
        have short : count ≤ leading.length := by
          by_contra beyond
          have hidden := separates _ _ _ _ _ covered leading c rest rfl (by omega)
          rw [lastBefore_cons, hidden] at recognised
          cases recognised
        have later : recognise (lastBefore (d :: (leading ++ c :: rest).take count).getLast?
            (leading.drop count)) c rest = some (value, tail) := by
          rw [getLast?_cons_eq_lastBefore, List.take_append_of_le_length short,
            ← lastBefore_append, List.take_append_drop]
          exact recognised
        have shorter : (leading.drop count).length < (d :: leading).length := by
          rw [List.length_drop, List.length_cons]
          omega
        have member := ih (leading.drop count).length shorter (offset + count + 1)
          ((d :: (leading ++ c :: rest).take count).getLast?) (leading.drop count) later rfl
        refine List.mem_cons_of_mem _ ?_
        rw [List.drop_append_of_le_length short]
        rw [List.length_drop] at member
        rwa [List.length_cons, show offset + (leading.length + 1) =
          offset + count + 1 + (leading.length - count) by omega]

theorem offset_le_of_mem_matchesAt {offset : Nat} {previous : Option Symbol} {text : Text}
    {found : Match α} (member : found ∈ matchesAt recognise offset previous text) :
    offset ≤ found.offset := by
  obtain ⟨leading, c, rest, -, place, -⟩ := mem_matchesAt member
  omega

/-- Matches are found in the order of their places. -/
theorem matchesAt_increasing (offset : Nat) (previous : Option Symbol) (text : Text) :
    (matchesAt recognise offset previous text).Pairwise (·.offset < ·.offset) := by
  fun_induction matchesAt recognise offset previous text with
  | case1 => exact .nil
  | case2 offset previous c rest unrecognised ih => exact ih
  | case3 offset previous c rest value tail recognised ih =>
    refine .cons (fun other member => ?_) ih
    have := offset_le_of_mem_matchesAt member
    change offset < other.offset
    omega

/-! ## Matches in code -/

theorem slice_drop (text : Text) (start stop count : Nat) :
    (slice text start stop).drop count = slice text (start + count) stop := by
  rw [slice, slice, List.drop_take, List.drop_drop, Nat.sub_sub]

theorem slice_eq_append {text leading following : Text} {start stop : Nat}
    (shape : slice text start stop = leading ++ following) :
    slice text (start + leading.length) stop = following := by
  rw [← slice_drop, shape, List.drop_left]

/-- What is seen from a later offset on is the end of what is seen from an earlier one. -/
theorem exists_slice_append {text rest : Text} {c : Symbol} {start later stop : Nat}
    (order : start ≤ later) (here : slice text later stop = c :: rest) :
    ∃ leading, slice text start stop = leading ++ c :: rest ∧ start + leading.length = later := by
  have part := slice_drop text start stop (later - start)
  rw [Nat.add_sub_of_le order, here] at part
  refine ⟨(slice text start stop).take (later - start), ?_, ?_⟩
  · rw [← part, List.take_append_drop]
  · have lengths := congrArg List.length part
    rw [List.length_drop, List.length_cons] at lengths
    rw [List.length_take_of_le (by omega), Nat.add_sub_of_le order]

theorem charBefore?_add {text leading following : Text} {start stop : Nat}
    (shape : slice text start stop = leading ++ following) :
    charBefore? text (start + leading.length) = lastBefore (charBefore? text start) leading := by
  induction leading generalizing start with
  | nil => rfl
  | cons c leading ih =>
    have head : text[start]? = some c := by
      have first := congrArg List.head? shape
      rw [slice, List.head?_take] at first
      split at first
      · simp at first
      · rwa [List.head?_drop] at first
    have cut : slice text start stop = [c] ++ (leading ++ following) := shape
    have tail : slice text (start + 1) stop = leading ++ following := slice_eq_append cut
    rw [List.length_cons, show start + (leading.length + 1) = start + 1 + leading.length by omega,
      ih tail, lastBefore_cons]
    congr 1

end SuiteDocs.Source
