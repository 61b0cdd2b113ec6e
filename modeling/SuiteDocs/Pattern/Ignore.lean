import SuiteDocs.Pattern.Wildcard
import SuiteDocs.Text.Lines
import SuiteDocs.Text.Strip

/-!
Rules that leave files and directories out of discovery.
-/

set_option autoImplicit false

namespace SuiteDocs

open SuiteDocs.Text

/-- A rule: what it matches, and whether it leaves out or brings back. -/
structure IgnoreRule where
  pattern : Text
  directoryOnly : Bool
  anchored : Bool
  negate : Bool
  hasSlash : Bool
  deriving DecidableEq, Repr

namespace IgnoreRule

/-- The rule that a line spells. A slash at its end restricts it to directories, and one at its
start ties it to the root. -/
def ofLine? (line : Text) (negate : Bool) : Option IgnoreRule :=
  let text := strip line
  if text.isEmpty then none
  else
    let directoryOnly := text.getLast? == some '/'
    let text := if directoryOnly then text.dropLast else text
    let anchored := text.head? == some '/'
    let text := if anchored then text.drop 1 else text
    some { pattern := text, directoryOnly, anchored, negate,
           hasSlash := text.contains '/' }

/-- Whether a rule matches a path. A pattern with a slash is compared with the whole path, any
other with each component. -/
def matchesPath (rule : IgnoreRule) (path : Text) (isDirectory : Bool) : Bool :=
  if rule.pattern.isEmpty then false
  else if rule.directoryOnly && !isDirectory then false
  else if rule.anchored || rule.hasSlash then
    Wildcard.matchesText rule.pattern path ||
      (rule.directoryOnly && (rule.pattern ++ "/").isPrefixOf path)
  else
    (splitOn '/' path).any fun part => Wildcard.matchesText rule.pattern part

/-- Whether the rules leave a path out: the last rule that matches decides. -/
def ignores (rules : List IgnoreRule) (path : Text) (isDirectory : Bool) : Bool :=
  rules.foldl (fun ignored rule =>
    if rule.matchesPath path isDirectory then !rule.negate else ignored) false

/-- The rule of one line of an ignore file, if it has one: a line that starts with `#` is a
comment, and a `!` brings back. -/
def ofFileLine? (line : Text) : Option IgnoreRule :=
  match strip line with
  | [] => none
  | .char '#' :: _ => none
  | .char '!' :: rest => ofLine? rest true
  | line => ofLine? line false

/-- The rules of the text of an ignore file. -/
def ofFile (text : Text) : List IgnoreRule :=
  (lines text).filterMap ofFileLine?

end IgnoreRule

end SuiteDocs
