import SuiteDocs.Source.Piece

/-!
The closing bracket that belongs to an opening one.
-/

set_option autoImplicit false

namespace SuiteDocs.Source

def closerOf? : Symbol → Option Symbol
  | .char '{' => some '}'
  | .char '(' => some ')'
  | .char '[' => some ']'
  | _ => none

/-- The offset of the first closing bracket at which the brackets of its kind, of which `nested`
and one more are open, are all closed. Other kinds of brackets are not counted. -/
def closeOffset? (opener closer : Symbol) (nested offset : Nat) : List Piece → Option Nat
  | [] => none
  | .literal _ inner :: rest => closeOffset? opener closer nested (offset + inner.length + 1) rest
  | .code c :: rest =>
    if c == opener then closeOffset? opener closer (nested + 1) (offset + 1) rest
    else if c == closer then
      match nested with
      | 0 => some offset
      | nested + 1 => closeOffset? opener closer nested (offset + 1) rest
    else closeOffset? opener closer nested (offset + 1) rest

theorem closeOffset?_ge {opener closer : Symbol} {nested offset stop : Nat} {rest : List Piece}
    (found : closeOffset? opener closer nested offset rest = some stop) : offset ≤ stop := by
  fun_induction closeOffset? opener closer nested offset rest with
  | case1 => simp at found
  | case4 => simp_all
  | case2 _ _ _ _ _ ih => exact Nat.le_trans (by omega) (ih found)
  | case3 _ _ _ _ _ ih => exact Nat.le_trans (by omega) (ih found)
  | case5 _ _ _ _ _ _ ih => exact Nat.le_trans (by omega) (ih found)
  | case6 _ _ _ _ _ _ ih => exact Nat.le_trans (by omega) (ih found)

/-- The offset of the bracket that closes the one at `start`. -/
def matchingClose (text : Text) (start : Nat) : Except Fault Nat :=
  match text.drop start with
  | [] => .error .outOfRange
  | opener :: _ =>
    match closerOf? opener with
    | none => .error (.unsupportedOpener opener start)
    | some closer =>
      match closeOffset? opener closer 0 (start + 1) (piecesFrom text (start + 1)) with
      | none => .error (.unclosedBracket opener closer start)
      | some stop => .ok stop

/-- A bracket is closed after it is opened. -/
theorem matchingClose_gt {text : Text} {start stop : Nat}
    (found : matchingClose text start = .ok stop) : start < stop := by
  unfold matchingClose at found
  split at found
  · simp at found
  · split at found
    · simp at found
    · split at found
      · simp at found
      · rename_i close
        obtain rfl := Except.ok.inj found
        exact closeOffset?_ge close

end SuiteDocs.Source
