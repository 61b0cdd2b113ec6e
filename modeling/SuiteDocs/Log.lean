import SuiteDocs.Text.Symbol

/-!
Messages that a run leaves behind, in the order in which they arise.
-/

set_option autoImplicit false

namespace SuiteDocs

/-- How serious a message is. -/
inductive Level where
  | debug
  | info
  | warning
  | error
  | critical
  deriving DecidableEq, Repr

/-- The name of a level in log lines. -/
def Level.name : Level → Text
  | .debug => "DEBUG"
  | .info => "INFO"
  | .warning => "WARNING"
  | .error => "ERROR"
  | .critical => "CRITICAL"

/-- The rank of a level; more serious ones are higher. -/
def Level.rank : Level → Nat
  | .debug => 10
  | .info => 20
  | .warning => 30
  | .error => 40
  | .critical => 50

/-- A message, and the part of the program that it comes from. -/
structure LogRecord where
  level : Level
  component : Text
  message : Text
  deriving DecidableEq, Repr

/-- A value and the messages on the way to it. -/
structure Logged (α : Type) where
  value : α
  records : List LogRecord

namespace Logged

instance : Monad Logged where
  pure value := ⟨value, []⟩
  bind x next :=
    let y := next x.value
    ⟨y.value, x.records ++ y.records⟩

def record (level : Level) (component message : Text) : Logged Unit :=
  ⟨(), [⟨level, component, message⟩]⟩

def debug (component message : Text) : Logged Unit := record .debug component message

def info (component message : Text) : Logged Unit := record .info component message

def warning (component message : Text) : Logged Unit := record .warning component message

def error (component message : Text) : Logged Unit := record .error component message

end Logged

/-- A logged value that may be missing for a reason. What was logged before stays. -/
abbrev LoggedExcept (ε : Type) := ExceptT ε Logged

end SuiteDocs
