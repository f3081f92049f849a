import SaltedHash.Text.CodePoint

/-!
# The log

Operations report what they did as entries of a log. An entry has a level and the channel it is
written to; who reads the log chooses from which level on.
-/

namespace SaltedHash.Log

inductive Level where
  | debug | warning | error
  deriving DecidableEq, Repr

/-- The rank of a level: a log shows the entries that rank at its threshold or above. -/
def Level.rank : Level → Nat
  | debug => 10
  | warning => 30
  | error => 40

def Level.name : Level → String
  | debug => "DEBUG"
  | warning => "WARNING"
  | error => "ERROR"

def threshold? (name : Text) : Option Nat :=
  let names : List (String × Nat) :=
    [("CRITICAL", 50), ("FATAL", 50), ("ERROR", 40), ("WARN", 30), ("WARNING", 30), ("INFO", 20),
      ("DEBUG", 10), ("NOTSET", 0)]
  (names.find? fun entry => Text.ofString entry.1 == name).map Prod.snd

inductive Channel where
  | salt | passwd | crypt | main
  deriving DecidableEq, Repr

def Channel.name : Channel → String
  | salt => "sshacrypt.salt"
  | passwd => "sshacrypt.passwd"
  | crypt => "sshacrypt.crypt"
  | main => "sshacrypt.main"

structure Entry where
  level : Level
  channel : Channel
  text : Text
  deriving DecidableEq, Repr

def atLeast (threshold : Nat) (entries : List Entry) : List Entry :=
  entries.filter fun entry => threshold ≤ entry.level.rank

end SaltedHash.Log

namespace SaltedHash

structure Logged (α : Type) where
  value : α
  log : List Log.Entry
  deriving DecidableEq, Repr

end SaltedHash
