import SuiteDocs.Block.Site
import SuiteDocs.Source.Field

/-!
Declarations of suites and tests: their title, options and body.
-/

set_option autoImplicit false

namespace SuiteDocs

open SuiteDocs.Text SuiteDocs.Source

/-- A declaration found in a text: the offsets of the call, of the braces of its body, and the
text of its options and body. -/
structure Block where
  keyword : Text
  title : Text
  start : Nat
  stop : Nat
  options : Text
  bodyStart : Nat
  bodyStop : Nat
  body : Text
  deriving DecidableEq, Repr

namespace Block

/-- Why a declaration could not be read. -/
inductive Error where
  | unbalancedCall (keyword : Text) (fault : Fault)
  | pastEnclosing (keyword : Text)
  | noArguments (keyword : Text)
  | noTitle (keyword : Text)
  | noBody (keyword title : Text)
  | unclosedBody (keyword title : Text) (fault : Fault)
  | undeclared (keyword : Text) (title : Option Text)
  /-- A fault of the text itself, from which readers of declarations do not recover. -/
  | faulty (fault : Fault)
  deriving DecidableEq, Repr

/-- Whether a declaration is missing or malformed, rather than the text faulty. -/
def Error.isNotFound : Error → Bool
  | .faulty _ => false
  | _ => true

def Error.message : Error → Text
  | .unbalancedCall keyword fault => "Unbalanced " ++ keyword ++ "() call: " ++ fault.message
  | .pastEnclosing keyword => keyword ++ "() call extends past the enclosing block"
  | .noArguments keyword => keyword ++ "() call has no arguments"
  | .noTitle keyword => keyword ++ "() title is not a plain string literal"
  | .noBody keyword title => keyword ++ "(" ++ quoted title ++ ") has no callback block body"
  | .unclosedBody keyword title fault =>
    keyword ++ "(" ++ quoted title ++ ") body is not closed: " ++ fault.message
  | .undeclared keyword none => "No " ++ keyword ++ "() declaration found"
  | .undeclared keyword (some title) =>
    "No " ++ keyword ++ "() declaration titled " ++ quoted title ++ " found"
  | .faulty fault => fault.message

/-- Gives a name to a fault if the text is unbalanced, and passes on any other fault. -/
def recover {α : Type} (name : Fault → Error) : Except Fault α → Except Error α
  | .ok value => .ok value
  | .error fault => .error (if fault.isUnbalanced then name fault else .faulty fault)

def startsFunction (text : Text) : Bool :=
  let word : Text := "function"
  let afterAsync := text.drop 5
  let text :=
    if ("async" : Text).isPrefixOf text && (afterAsync.head?.any isBlank) then
      afterAsync.dropWhile isBlank
    else text
  word.isPrefixOf text && !((text.drop word.length).head?.any isWord)

/-- The offset of the brace that opens the body of an arrow function or a function expression. -/
def callbackBody? (text : Text) (span : Span) : Except Fault (Option Nat) :=
  match findTopLevel? text "=>" span.start (some span.stop) with
  | some arrow =>
    .ok ((nextCode? text (arrow + 2) (some span.stop)).filter fun brace =>
      text[brace]? == some (.char '\x7b'))
  | none =>
    if startsFunction (text.drop span.start) then
      match findTopLevel? text "(" span.start (some span.stop) with
      | none => .ok none
      | some parameters =>
        match matchingClose text parameters with
        | .error fault => if fault.isUnbalanced then .ok none else .error fault
        | .ok close => .ok (findTopLevel? text "\x7b" (close + 1) (some span.stop))
    else .ok none

/-- The first body that one of the arguments opens. -/
def firstBody? (text : Text) : List Span → Except Fault (Option Nat)
  | [] => .ok none
  | span :: rest =>
    match callbackBody? text span with
    | .error fault => .error fault
    | .ok (some brace) => .ok (some brace)
    | .ok none => firstBody? text rest

/-- The text of the first argument that is an object. -/
def optionsOf (text : Text) (arguments : List Span) : Text :=
  match arguments.find? fun span => text[span.start]? == some (.char '\x7b') with
  | none => []
  | some span => slice text span.start span.stop

/-- Reads the declaration that a call makes. Its first argument is the title; the options are the
first object and the body belongs to the last function among the others. -/
def read (text : Text) (site : CallSite) (stop : Option Nat) : Except Error Block := do
  let close ← recover (.unbalancedCall site.keyword) (matchingClose text site.openParen)
  if stop.any (· ≤ close) then throw (.pastEnclosing site.keyword)
  let arguments ← (splitTopLevel text (site.openParen + 1) close (· == ',')).mapError .faulty
  match arguments with
  | [] => throw (.noArguments site.keyword)
  | first :: others =>
    match literalValue? (slice text first.start first.stop) with
    | none => throw (.noTitle site.keyword)
    | some title =>
      match ← (firstBody? text others.reverse).mapError .faulty with
      | none => throw (.noBody site.keyword title)
      | some bodyStart =>
        let bodyStop ← recover (.unclosedBody site.keyword title) (matchingClose text bodyStart)
        return {
          keyword := site.keyword
          title
          start := site.start
          stop := close + 1
          options := optionsOf text others
          bodyStart
          bodyStop
          body := slice text (bodyStart + 1) bodyStop }

/-- A declaration goes on past the parenthesis that opens its arguments. -/
theorem openParen_lt_stop_of_read {text : Text} {site : CallSite} {stop : Option Nat}
    {block : Block} (found : read text site stop = .ok block) : site.openParen < block.stop := by
  unfold read at found
  cases closed : matchingClose text site.openParen with
  | error fault => simp [closed, recover, bind, Except.bind] at found
  | ok close =>
    have after := matchingClose_gt closed
    simp only [closed, recover, bind, Except.bind] at found
    repeat' split at found
    all_goals first | contradiction | skip
    obtain rfl := Except.ok.inj found
    exact Nat.lt_succ_of_lt after

/-- Where a walk over declaring calls goes on from each of them: behind the parenthesis that opens
its arguments. -/
structure Stride where
  next : CallSite → Nat
  beyond : ∀ site, site.openParen < next site

set_option linter.unusedVariables false in
/-- The declaring calls that a walk meets from left to right, each with the declaration that it
makes. -/
def walk (text : Text) (keywords : List Text) (stop : Option Nat) (stride : Stride) (start : Nat) :
    List (CallSite × Except Error Block) :=
  match found : CallSite.next? text keywords start stop with
  | none => []
  | some site => (site, read text site stop) :: walk text keywords stop stride (stride.next site)
termination_by text.length - start
decreasing_by
  have bounds := CallSite.next?_bounds found
  have after := stride.beyond site
  omega

/-- Into each call, so that calls inside other calls are met too. -/
def Stride.into : Stride where
  next site := site.openParen + 1
  beyond _ := Nat.lt_succ_self _

/-- Where the search for the next outermost declaration goes on: behind one that was read, and
inside the call of one that was not. -/
def resume (site : CallSite) : Except Error Block → Nat
  | .ok block => block.stop
  | .error _ => site.openParen + 1

theorem openParen_lt_resume (text : Text) (site : CallSite) (stop : Option Nat) :
    site.openParen < resume site (read text site stop) := by
  cases found : read text site stop with
  | error error => exact Nat.lt_succ_self _
  | ok block => exact openParen_lt_stop_of_read found

/-- Past each declaration that is read. -/
def Stride.past (text : Text) (stop : Option Nat) : Stride where
  next site := resume site (read text site stop)
  beyond site := openParen_lt_resume text site stop

/-- All declaring calls from left to right, those inside other calls included, each with the
declaration that it makes. -/
def declarations (text : Text) (keywords : List Text) (start : Nat) (stop : Option Nat) :
    List (CallSite × Except Error Block) :=
  walk text keywords stop .into start

/-- The declaring calls from left to right, each with the declaration that it makes, without those
inside a declaration that was read. -/
def outermost (text : Text) (keywords : List Text) (start : Nat) (stop : Option Nat) :
    List (CallSite × Except Error Block) :=
  walk text keywords stop (.past text stop) start

/-- The first declaration that can be read and has the wanted title, if one is wanted. -/
def select (missing : Error) (title : Option Text) :
    List (CallSite × Except Error Block) → Except Error Block
  | [] => .error missing
  | (_, .ok block) :: rest =>
    if title.all (· == block.title) then .ok block else select missing title rest
  | (_, .error error) :: rest =>
    if error.isNotFound then select missing title rest else .error error

/-- The name under which a missing declaration is reported. -/
def label (keywords : List Text) : Text :=
  keywords.headD "registration"

/-- The first declaration that can be read. -/
def first (text : Text) (keywords : List Text) (start : Nat) (stop : Option Nat) :
    Except Error Block :=
  select (.undeclared (label keywords) none) none (declarations text keywords start stop)

/-- The first declaration that can be read and has the given title. -/
def named (text : Text) (keywords : List Text) (title : Text) (start : Nat)
    (stop : Option Nat) : Except Error Block :=
  select (.undeclared (label keywords) (some title)) (some title)
    (declarations text keywords start stop)

end Block

end SuiteDocs
