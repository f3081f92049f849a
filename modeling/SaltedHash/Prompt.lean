import SaltedHash.Record
import SaltedHash.Salt.Source
import SaltedHash.Datum.Equal

/-!
# Asking for a password

A password is asked for twice, until both answers agree. The answers to come are a list: the
loops run over it, and where it ends the input ends.
-/

namespace SaltedHash.Prompt

inductive Answer where
  | given (value : Datum)
  | interrupt
  deriving Inhabited

inductive Stop where
  | endOfInput
  | interrupted
  | fault (cause : Fault)
  deriving DecidableEq, Repr

def first : Text := "Password: "

def again : Text := "Again: "

def mismatch : Text := Text.line "Bad match, try again."

/-- What asking leaves behind: the prompts shown, what was written besides, and the answers that
are left. -/
structure Dialogue (α : Type) where
  result : Except Stop α
  asked : List Text
  err : Text
  log : List Log.Entry
  supply : Salt.Supply
  answers : List Answer

namespace Dialogue

def after {α : Type} (asked : List Text) (err : Text) (log : List Log.Entry) (d : Dialogue α) :
    Dialogue α :=
  { d with asked := asked ++ d.asked, err := err ++ d.err, log := log ++ d.log }

def ended {α : Type} (result : Except Stop α) (asked : List Text) (log : List Log.Entry)
    (supply : Salt.Supply) (answers : List Answer) : Dialogue α :=
  { result, asked, err := [], log, supply, answers }

end Dialogue

open Dialogue

/-- Asks for a password twice and makes a record of each answer with a new salt, until both have
the same digest. -/
def record [Cryptography] (supply : Salt.Supply) (answers : List Answer) : Dialogue Record :=
  let (salt, supply) := supply.salt Record.saltSize
  match answers with
  | [] => ended (.error .endOfInput) [first] [] supply []
  | .interrupt :: rest => ended (.error .interrupted) [first] [] supply rest
  | .given a :: rest =>
    let one := Record.ofPlaintext (.octets salt) a
    match one.value with
    | .error cause => ended (.error (.fault cause)) [first] one.log supply rest
    | .ok kept =>
      match rest with
      | [] => ended (.error .endOfInput) [first, again] one.log supply []
      | .interrupt :: rest => ended (.error .interrupted) [first, again] one.log supply rest
      | .given b :: rest =>
        let two := Record.ofPlaintext (.octets salt) b
        match two.value with
        | .error cause =>
          ended (.error (.fault cause)) [first, again] (one.log ++ two.log) supply rest
        | .ok second =>
          if kept.sameDigest second then
            ended (.ok kept) [first, again] (one.log ++ two.log) supply rest
          else
            after [first, again] mismatch (one.log ++ two.log) (record supply rest)

def password (supply : Salt.Supply) : List Answer → Dialogue Datum
  | [] => ended (.error .endOfInput) [first] [] supply []
  | .interrupt :: rest => ended (.error .interrupted) [first] [] supply rest
  | .given _ :: [] => ended (.error .endOfInput) [first, again] [] supply []
  | .given _ :: .interrupt :: rest => ended (.error .interrupted) [first, again] [] supply rest
  | .given a :: .given b :: rest =>
    if a.equal b then ended (.ok a) [first, again] [] supply rest
    else after [first, again] mismatch [] (password supply rest)

def once (supply : Salt.Supply) : List Answer → Dialogue Datum
  | [] => ended (.error .endOfInput) [first] [] supply []
  | .interrupt :: rest => ended (.error .interrupted) [first] [] supply rest
  | .given a :: rest => ended (.ok a) [first] [] supply rest

end SaltedHash.Prompt
