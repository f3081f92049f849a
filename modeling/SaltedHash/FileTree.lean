import SaltedHash.Fault
import SaltedHash.Text.Utf8

/-!
# Files by name

Names are made of parts between slashes. A tree holds files under their names, and every part of a
name before the last is a directory. Looking a name up gives the content or the reason why not.
-/

namespace SaltedHash

namespace FileName

def slash : CodePoint := CodePoint.ofChar '/'

def here : Text := [CodePoint.ofChar '.']

def above : Text := [CodePoint.ofChar '.', CodePoint.ofChar '.']

def split (t : Text) : List Text :=
  t.foldr (fun c parts =>
    if c = slash then [] :: parts
    else
      match parts with
      | [] => [[c]]
      | part :: rest => (c :: part) :: rest) [[]]

def parts (t : Text) : List Text := (split t).filter fun part => part ≠ [] && part ≠ here

def root (t : Text) : Text :=
  let slashes := (t.takeWhile (· = slash)).length
  if slashes = 0 then [] else if slashes = 2 then [slash, slash] else [slash]

/-- The name without parts that lead nowhere. -/
def normal (t : Text) : Text :=
  let name := root t ++ Text.join [slash] (parts t)
  if name.isEmpty then here else name

/-- Whether a code point is one of the surrogates that stand for octets outside ASCII. -/
def isEscapedOctet (c : CodePoint) : Bool := 0xDC80 ≤ c.val && c.val ≤ 0xDCFF

/-- Why no file can have such a name, if none can: a surrogate stands for no octet, or there is a
null. -/
def fault? (t : Text) : Option Fault :=
  match t.findIdx? fun c => CodePoint.isSurrogate c && !isEscapedOctet c with
  | some place => some (.unencodable place ((t.drop place).takeWhile CodePoint.isSurrogate))
  | none => if t.any (·.val == 0) then some .nullInName else none

end FileName

inductive FileFault where
  | missing | directory | notADirectory | nameTooLong
  | other (reason : String)
  deriving DecidableEq, Repr

def FileFault.message : FileFault → String
  | missing => "No such file or directory"
  | directory => "Is a directory"
  | notADirectory => "Not a directory"
  | nameTooLong => "File name too long"
  | other reason => reason

abbrev FileTree := List (Text × Octets)

namespace FileTree

def maxPart : Nat := 255

def maxName : Nat := 4096

def octetCount (t : Text) : Nat :=
  t.foldl (fun n c => n + if CodePoint.isSurrogate c then 1 else (CodePoint.utf8 c).length) 0

def file? (tree : FileTree) (parts : List Text) : Option Octets :=
  (tree.find? fun entry => FileName.parts entry.1 == parts).map Prod.snd

def isDirectory (tree : FileTree) (parts : List Text) : Bool :=
  parts.isEmpty || tree.any fun entry =>
    parts.isPrefixOf (FileName.parts entry.1) && parts != FileName.parts entry.1

/-- Follows the parts of a name from the directory `place`, or from the one that lies `above` levels
above the top. Of what lies up there it is known only that it is there. -/
def follow (tree : FileTree) (above : Nat) (place : List Text) :
    List Text → Except FileFault Octets
  | [] => .error .directory
  | part :: rest =>
    if maxPart < octetCount part then .error .nameTooLong
    else if part = FileName.above then
      if place.isEmpty then follow tree (above + 1) [] rest
      else follow tree above place.dropLast rest
    else if above ≠ 0 then .error .missing
    else
      let place := place ++ [part]
      match file? tree place with
      | some content => if rest.isEmpty then .ok content else .error .notADirectory
      | none => if isDirectory tree place then follow tree 0 place rest else .error .missing

def followRoot : List Text → FileFault
  | [] => .directory
  | part :: rest =>
    if part = FileName.above then followRoot rest
    else if maxPart < octetCount part then .nameTooLong
    else .missing

def read (tree : FileTree) (name : Text) : Except FileFault Octets :=
  if maxName ≤ octetCount name then .error .nameTooLong
  else if (FileName.root name).isEmpty then follow tree 0 [] (FileName.parts name)
  else .error (followRoot (FileName.parts name))

end FileTree

end SaltedHash
