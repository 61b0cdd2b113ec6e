import SuiteDocs.Source.Piece

/-!
Segments of a text between separators, without the white space and comments around them.
-/

set_option autoImplicit false

namespace SuiteDocs.Source

open SuiteDocs.Text

/-- Extends a span, if there is one, to a new end; otherwise starts one. -/
def Span.extend (found : Option Span) (start stop : Nat) : Span :=
  match found with
  | none => ⟨start, stop⟩
  | some span => { span with stop }

/-- The least span that holds all of the text up to `stop` but white space and comments at its
ends. The text is given from `offset` on, with the characters before it, nearest first. A literal
that goes past `stop` is cut there. -/
def trimAt (stop : Nat) (found : Option Span) (offset : Nat) (before : Text) :
    Text → Except Fault (Option Span)
  | [] => if stop ≤ offset then .ok found else .error .outOfRange
  | c :: rest =>
    if stop ≤ offset then .ok found
    else if isBlank c then trimAt stop found (offset + 1) (c :: before) rest
    else
      let count := (literalTail? before c rest).getD 0
      let next := offset + count + 1
      let found := if startsComment (c :: rest) then found
        else some (Span.extend found offset (min next stop))
      trimAt stop found next ((rest.take count).reverse ++ c :: before) (rest.drop count)
termination_by text => text.length
decreasing_by all_goals exact Nat.lt_succ_of_le (by simp)

/-- The part of a span that is left without white space and comments at its ends. -/
def trimSpan (text : Text) (span : Span) : Except Fault (Option Span) :=
  trimAt span.stop none span.start (text.take span.start).reverse (text.drop span.start)

/-- The spans between `start` and `stop` that the given offsets separate. -/
def separatedSpans (start stop : Nat) : List Nat → List Span
  | [] => [⟨start, stop⟩]
  | offset :: rest => ⟨start, offset⟩ :: separatedSpans (offset + 1) stop rest

/-- The segments of a text between the separators that stand outside all brackets. Segments with
nothing but white space and comments are left out. -/
def splitTopLevel (text : Text) (start stop : Nat) (isSeparator : Symbol → Bool) :
    Except Fault (List Span) := do
  let separators := (topLevelBetween text start (some stop)).filter (isSeparator ·.char)
  let trimmed ← (separatedSpans start stop (separators.map (·.offset))).mapM (trimSpan text)
  return trimmed.filterMap id

/-- The offset of the next character that is neither white space nor part of a comment. -/
def nextCodeAt? (stop : Nat) (offset : Nat) (before : Text) : Text → Option Nat
  | [] => none
  | c :: rest =>
    if stop ≤ offset then none
    else if isBlank c then nextCodeAt? stop (offset + 1) (c :: before) rest
    else if startsComment (c :: rest) then
      let count := (literalTail? before c rest).getD 0
      nextCodeAt? stop (offset + count + 1) ((rest.take count).reverse ++ c :: before)
        (rest.drop count)
    else some offset
termination_by text => text.length
decreasing_by all_goals exact Nat.lt_succ_of_le (by simp)

/-- The offset of the first character from `start` on, and before `stop`, that is neither white
space nor part of a comment. -/
def nextCode? (text : Text) (start : Nat) (stop : Option Nat) : Option Nat :=
  nextCodeAt? (stop.getD text.length) start (text.take start).reverse (text.drop start)

/-- The number of the line, from one, on which an offset lies. -/
def lineOf (text : Text) (offset : Nat) : Nat :=
  (text.take offset).count (.char '\n') + 1

end SuiteDocs.Source
