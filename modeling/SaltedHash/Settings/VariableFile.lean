import SaltedHash.Settings.Basic
import SaltedHash.Text.Blank

/-!
# Files of variables

A file holds one binding to a line: perhaps the word `export`, a name, an equals sign and a value.
A value may stand in quotes, single or double, and then runs over line ends; without quotes it ends
with the line or before a blank and a number sign. A line that is no binding is skipped. A byte
order mark at the start of the file does not count.

A value may quote the value of another variable in braces after a dollar sign, with a fallback
after a colon and a hyphen.
-/

namespace SaltedHash.Settings.VariableFile

/-! ## Characters -/

local instance : Coe Char CodePoint := ⟨CodePoint.ofChar⟩

def isLineEnd (c : CodePoint) : Bool := c.val == 10 || c.val == 13

def isInlineBlank (c : CodePoint) : Bool := CodePoint.isSeparator c && !isLineEnd c

def unifyLineEnds : Text → Text
  | [] => []
  | c :: rest =>
    if c = ('\r' : CodePoint) then
      match rest with
      | [] => [('\n' : CodePoint)]
      | d :: more =>
        if d = ('\n' : CodePoint) then ('\n' : CodePoint) :: unifyLineEnds more
        else ('\n' : CodePoint) :: unifyLineEnds (d :: more)
    else c :: unifyLineEnds rest

def skipBlanks (t : Text) : Text := t.dropWhile isInlineBlank

/-! ## Names -/

def skipExport (t : Text) : Text :=
  let word : Text := "export"
  if word.isPrefixOf t then
    let rest := t.drop word.length
    let after := skipBlanks rest
    if after.length < rest.length then after else t
  else t

/-- A name and the text after it: in single quotes, or up to a separator, an equals sign or a number
sign. -/
def name? (t : Text) : Option (Text × Text) :=
  match t with
  | [] => none
  | c :: rest =>
    if c = ('\'' : CodePoint) then
      match rest.span (· ≠ ('\'' : CodePoint)) with
      | (first :: more, _ :: after) => some (first :: more, after)
      | _ => none
    else
      match t.span fun c =>
          !(c = ('=' : CodePoint) || c = ('#' : CodePoint) || CodePoint.isSeparator c) with
      | ([], _) => none
      | name => some name

/-! ## Values -/

/-- The text up to a closing quote and the text after it. What follows a backslash does not close.
The argument `seen` is the text read. -/
def closeQuote? (quote : CodePoint) (seen : Text) : Text → Option (Text × Text)
  | [] => none
  | c :: rest =>
    if c = quote then some (seen, rest)
    else if c = ('\\' : CodePoint) then
      match rest with
      | [] => none
      | d :: more => closeQuote? quote (seen ++ [c, d]) more
    else closeQuote? quote (seen ++ [c]) rest

def singleEscape? (c : CodePoint) : Option CodePoint :=
  if c = ('\\' : CodePoint) || c = ('\'' : CodePoint) then some c else none

def doubleEscape? (c : CodePoint) : Option CodePoint :=
  let escapes : List (Char × Nat) :=
    [('\\', 92), ('\'', 39), ('"', 34), ('a', 7), ('b', 8), ('f', 12), ('n', 10), ('r', 13),
      ('t', 9), ('v', 11)]
  (escapes.find? fun entry => CodePoint.ofChar entry.1 == c).map fun entry => Fin.ofNat _ entry.2

def unescape (escape? : CodePoint → Option CodePoint) : Text → Text
  | [] => []
  | [c] => [c]
  | c :: d :: rest =>
    if c = ('\\' : CodePoint) then
      match escape? d with
      | some e => e :: unescape escape? rest
      | none => c :: unescape escape? (d :: rest)
    else c :: unescape escape? (d :: rest)

def dropComment (blanks : Text) : Text → Text
  | [] => blanks
  | c :: rest =>
    if CodePoint.isSeparator c then dropComment (blanks ++ [c]) rest
    else if c = ('#' : CodePoint) && !blanks.isEmpty then []
    else blanks ++ c :: dropComment [] rest

def quotedValue? (quote : CodePoint) (escape? : CodePoint → Option CodePoint) (t : Text) :
    Option (Text × Text) :=
  (closeQuote? quote [] t).map fun (value, after) => (unescape escape? value, after)

/-- A value without quotes, and the text after it. Blanks before the value separate too, so a
comment may stand in place of the value. -/
def plainValue (t : Text) : Text × Text :=
  let (line, after) := t.span fun c => !isLineEnd c
  (Text.trimBy CodePoint.isSeparator (dropComment [] line), after)

def value? (t : Text) : Option (Text × Text) :=
  match skipBlanks t with
  | [] => some ([], [])
  | c :: rest =>
    if c = ('\'' : CodePoint) then quotedValue? c singleEscape? rest
    else if c = ('"' : CodePoint) then quotedValue? c doubleEscape? rest
    else some (plainValue t)

/-! ## Bindings -/

def skipLine (t : Text) : Text := (t.dropWhile fun c => !isLineEnd c).drop 1

def endLine? (t : Text) : Option Text :=
  match skipBlanks t with
  | [] => some []
  | c :: rest =>
    if isLineEnd c then some rest
    else if c = ('#' : CodePoint) then some (skipLine (c :: rest))
    else none

def binding (t : Text) : Option Binding × Text :=
  match t with
  | [] => (none, [])
  | c :: _ =>
    if c = ('#' : CodePoint) then (none, skipLine t)
    else
      let start := skipExport t
      match name? start with
      | none => (none, skipLine start)
      | some (name, after) =>
        match skipBlanks after with
        | [] => (some (name, none), [])
        | d :: rest =>
          if d = ('=' : CodePoint) then
            match value? rest with
            | none => (none, skipLine rest)
            | some (value, after) =>
              match endLine? after with
              | some rest => (some (name, some value), rest)
              | none => (none, skipLine (skipBlanks after))
          else
            match endLine? (d :: rest) with
            | some rest => (some (name, none), rest)
            | none => (none, skipLine (d :: rest))

def bindings (t : Text) : List Binding :=
  let start := t.dropWhile CodePoint.isSeparator
  let (found, rest) := binding start
  if rest.length < t.length then
    match found with
    | some b => b :: bindings rest
    | none => bindings rest
  else found.toList
termination_by t.length

/-! ## References between variables -/

def put (entries : List Binding) (b : Binding) : List Binding :=
  if entries.any fun entry => entry.1 == b.1 then
    entries.map fun entry => if entry.1 == b.1 then b else entry
  else entries ++ [b]

def endsName (c : CodePoint) : Bool :=
  c = ('\x7d' : CodePoint) || c = (':' : CodePoint)

def endsFallback (c : CodePoint) : Bool :=
  c = ('\x7d' : CodePoint)

def reference? (t : Text) : Option (Text × Text × Text) :=
  let name := t.takeWhile fun c => !endsName c
  match t.dropWhile fun c => !endsName c with
  | [] => none
  | c :: rest =>
    if endsFallback c then some (name, [], rest)
    else if rest.head? = some ('-' : CodePoint) then
      let fallback := (rest.drop 1).takeWhile fun d => !endsFallback d
      match (rest.drop 1).dropWhile fun d => !endsFallback d with
      | [] => none
      | _ :: after => some (name, fallback, after)
    else none

theorem length_lt_of_reference? {t name fallback after : Text}
    (h : reference? t = some (name, fallback, after)) : after.length < t.length := by
  unfold reference? at h
  dsimp only at h
  split at h
  · exact absurd h (by simp)
  next c rest hs =>
    have hc := (List.dropWhile_sublist (fun c => !endsName c) (l := t)).length_le
    rw [hs, List.length_cons] at hc
    split at h
    · simp only [Option.some.injEq, Prod.mk.injEq] at h
      obtain ⟨-, -, rfl⟩ := h
      omega
    · split at h
      · split at h
        · exact absurd h (by simp)
        next d rest' hd =>
          have hf :=
            (List.dropWhile_sublist (fun d => !endsFallback d) (l := rest.drop 1)).length_le
          rw [hd, List.length_cons, List.length_drop] at hf
          simp only [Option.some.injEq, Prod.mk.injEq] at h
          obtain ⟨-, -, rfl⟩ := h
          omega
      · exact absurd h (by simp)

def valueOf (entries : List Binding) (name fallback : Text) : Text :=
  match entries.find? fun entry => entry.1 == name with
  | some (_, some value) => value
  | some (_, none) => []
  | none => fallback

def expand (entries : List Binding) (t : Text) : Text :=
  match t with
  | [] => []
  | c :: rest =>
    if c = ('$' : CodePoint) && rest.head? = some ('\x7b' : CodePoint) then
      match _h : reference? (rest.drop 1) with
      | some (name, fallback, after) => valueOf entries name fallback ++ expand entries after
      | none => c :: expand entries rest
    else c :: expand entries rest
termination_by t.length
decreasing_by
  · have := length_lt_of_reference? _h
    simp only [List.length_drop] at this
    simp only [List.length_cons]
    omega
  all_goals simp only [List.length_cons]; omega

def dropMark (t : Text) : Text :=
  match t with
  | [] => []
  | c :: rest => if c.val = 0xFEFF then rest else t

/-- The variables of a file with their references replaced, in the order in which they first stand
there. A reference looks at the variables above it, and then at the environment. -/
def resolve (environment : List (Text × Text)) (file : Text) : List Binding :=
  let outside : List Binding := environment.map fun entry => (entry.1, some entry.2)
  (bindings (unifyLineEnds (dropMark file))).foldl (fun entries b =>
    put entries (b.1, b.2.map (expand (entries ++ outside)))) []

end SaltedHash.Settings.VariableFile
