import SaltedHash.Datum.Basic
import SaltedHash.Text.Integer
import SaltedHash.Text.Quoted

/-!
# Commands and their arguments

What the command line asks for, and why it may be refused.
-/

namespace SaltedHash.CommandLine

inductive Command where
  | mkpass | crypt | check | digest | selftest
  deriving DecidableEq, Repr, Inhabited

namespace Command

def all : List Command := [mkpass, crypt, check, digest, selftest]

def name : Command → String
  | mkpass => "mkpass"
  | crypt => "crypt"
  | check => "check"
  | digest => "digest"
  | selftest => "selftest"

def ofText? (t : Text) : Option Command := all.find? fun c => Text.ofString c.name == t

end Command

inductive SaltLength where
  | unsaid
  | octets (n : Int)
  /-- The option is there, and the divider stands for its value. A divider does not count. -/
  | empty
  deriving DecidableEq, Repr

/-- The value of a salt length: nothing, an integer, or a list without items. -/
def SaltLength.datum : SaltLength → Datum
  | unsaid => .nothing
  | octets n => .integer n
  | empty => .list []

structure Request where
  command : Command
  operands : List Text
  saltLength : SaltLength
  deriving DecidableEq, Repr

inductive Flag where
  | help | saltLength
  deriving DecidableEq, Repr

def Flag.label : Flag → String
  | help => "-h/--help"
  | saltLength => "--salt-length"

inductive Complaint where
  /-- A shortened option that more than one option starts with. -/
  | ambiguous (argument : Text)
  | unwantedValue (flag : Flag) (value : Text)
  | missingValue (flag : Flag)
  | notAnInteger (value : Text)
  | unknownCommand (name : Text)
  | missingCommand
  | unrecognized (arguments : List Text)
  deriving DecidableEq, Repr

def Complaint.message : Complaint → Text
  | ambiguous argument =>
    "ambiguous option: " ++ argument ++ " could match --help, --salt-length"
  | unwantedValue flag value =>
    s!"argument {flag.label}: ignored explicit argument " ++ Text.quoted value
  | missingValue flag => s!"argument {flag.label}: expected one argument"
  | notAnInteger value => "argument --salt-length: invalid int value: " ++ Text.quoted value
  | unknownCommand name =>
    "argument command: invalid choice: " ++ Text.quoted name ++ " (choose from " ++
      Text.join ", " (Command.all.map fun c => Text.quoted (Text.ofString c.name)) ++ ")"
  | missingCommand => "the following arguments are required: command, args"
  | unrecognized arguments => "unrecognized arguments: " ++ Text.join " " arguments

inductive Halt where
  | help
  | complaint (what : Complaint)
  deriving DecidableEq, Repr

end SaltedHash.CommandLine
