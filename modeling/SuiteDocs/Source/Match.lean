import SuiteDocs.Source.Piece
import SuiteDocs.Text.Strip

/-!
Recognising things in the code of a source text.

A recogniser looks at one place: the character before it, the character at it and those after.
Recognised things do not overlap: the search goes on after the one found last.
-/

set_option autoImplicit false

namespace SuiteDocs.Source

/-- A thing recognised at an offset. It is `tail` characters longer than one character. -/
structure Match (α : Type) where
  offset : Nat
  value : α
  tail : Nat

/-- What a recogniser makes of a place: the thing there and the number of its characters after the
first one. -/
abbrev Recogniser (α : Type) := Option Symbol → Symbol → Text → Option (α × Nat)

/-- All matches from left to right in a text that starts at `offset`. -/
def matchesAt {α : Type} (recognise : Recogniser α) (offset : Nat) (previous : Option Symbol) :
    Text → List (Match α)
  | [] => []
  | c :: rest =>
    match recognise previous c rest with
    | none => matchesAt recognise (offset + 1) (some c) rest
    | some (value, tail) =>
      ⟨offset, value, tail⟩ :: matchesAt recognise (offset + tail + 1)
        (c :: rest.take tail).getLast? (rest.drop tail)
termination_by text => text.length
decreasing_by all_goals exact Nat.lt_succ_of_le (by simp)

/-- A match comes from the recogniser at its own place. -/
theorem recognise_of_mem_matchesAt {α : Type} {recognise : Recogniser α} {offset : Nat}
    {previous : Option Symbol} {text : Text} {found : Match α}
    (member : found ∈ matchesAt recognise offset previous text) :
    ∃ skipped before c rest, found.offset = offset + skipped ∧
      text.drop skipped = c :: rest ∧
      recognise before c rest = some (found.value, found.tail) := by
  fun_induction matchesAt recognise offset previous text with
  | case1 => simp at member
  | case2 offset previous c rest unrecognised ih =>
    obtain ⟨skipped, before, d, more, place, shape, recognised⟩ := ih member
    exact ⟨skipped + 1, before, d, more, by omega, by simpa using shape, recognised⟩
  | case3 offset previous c rest value tail recognised ih =>
    rcases List.mem_cons.mp member with rfl | member
    · exact ⟨0, previous, c, rest, by simp, by simp, recognised⟩
    · obtain ⟨skipped, before, d, more, place, shape, recognised⟩ := ih member
      refine ⟨tail + skipped + 1, before, d, more, by omega, ?_, recognised⟩
      rw [List.drop_succ_cons, ← shape, List.drop_drop]

def charBefore? (text : Text) : Nat → Option Symbol
  | 0 => none
  | offset + 1 => text[offset]?

/-- How many of the spans, which are in order, start at or before an offset. The number is sought
between `low` and `high`, and every look at the span in the middle halves what is left. -/
def startedBy (spans : Array Span) (offset low high : Nat) : Nat :=
  if low < high then
    let middle := (low + high) / 2
    if spans[middle]?.any (offset < ·.start) then startedBy spans offset low middle
    else startedBy spans offset (middle + 1) high
  else low
termination_by high - low

/-- Whether an offset lies in one of the spans, which are in order and apart: only the last one that
starts at or before the offset is looked at. -/
def isCovered (spans : Array Span) (offset : Nat) : Bool :=
  match startedBy spans offset 0 spans.size with
  | 0 => false
  | position + 1 => spans[position]?.any (·.contains offset)

/-- The matches between two offsets that start outside literals and comments. A recogniser sees
the character before `start`, and nothing from `stop` on. -/
def codeMatches {α : Type} (recognise : Recogniser α) (text : Text) (start : Nat)
    (stop : Option Nat) : List (Match α) :=
  let spans := (literalSpans text).toArray
  let found := matchesAt recognise start (charBefore? text start)
    (Text.slice text start (stop.getD text.length))
  found.filter fun place => !isCovered spans place.offset

end SuiteDocs.Source
