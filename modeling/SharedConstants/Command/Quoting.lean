import SharedConstants.Command.Octets

/-!
# Quoting in complaints

Commands quote what they complain about. Operands are quoted with curly marks, names of files
as a shell would read them back, and only if they have to be.
-/
namespace SharedConstants.Command

/-- The letter that stands for a control character behind a backslash. -/
def controlLetter? (c : Char) : Option Char :=
  match c with
  | '\x07' => some 'a'
  | '\x08' => some 'b'
  | '\t' => some 't'
  | '\n' => some 'n'
  | '\x0b' => some 'v'
  | '\x0c' => some 'f'
  | '\r' => some 'r'
  | _ => none

/-- An octet as three octal digits behind a backslash. -/
def octalEscape (c : Char) : String :=
  let n := c.toNat
  String.ofList
    ['\\', Char.ofNat (48 + n / 64 % 8), Char.ofNat (48 + n / 8 % 8), Char.ofNat (48 + n % 8)]

/-- The escapes of a character that is not shown as itself. -/
def escapes (c : Char) : String :=
  match controlLetter? c with
  | some letter => String.ofList ['\\', letter]
  | none => String.join ((Octets.ofText (String.ofList [c])).map octalEscape)

/-- Octets between curly quotation marks. -/
def quoted (cs : Octets) : String :=
  let inside := cs.toText.toList.map fun c =>
    if c = '\\' then "\\\\"
    else if c = '’' then "\\’"
    else if Text.isPrintable c then String.ofList [c]
    else escapes c
  "‘" ++ String.join inside ++ "’"

/-- Whether a character of a file name must be quoted. The flag tells whether it is the first
one. -/
def needsQuotes (isFirst : Bool) (c : Char) : Bool :=
  ('#' = c ∨ '~' = c) && isFirst || " !\"$&()*;<=>?[\\^`|:'".toList.contains c ||
    !Text.isPrintable c

/-- Whether a character may stand between double quotes as itself. -/
def fitsDoubleQuotes (c : Char) : Bool :=
  Octets.isAlphanumeric c || " #~%+,-./:]_'".toList.contains c || '~' < c

/-- Characters between single quotes, up to the last quote; those that cannot be seen are
escapes in quotes of their own. The flag tells whether such quotes are open. -/
def singleQuoted : Bool → List Char → String
  | _, [] => "'"
  | isEscaping, c :: cs =>
    if c = '\'' then "'\\''" ++ singleQuoted false cs
    else if Text.isPrintable c then
      (if isEscaping then "''" else "") ++ String.ofList [c] ++ singleQuoted false cs
    else (if isEscaping then "" else "'$'") ++ escapes c ++ singleQuoted true cs

/-- Octets in quotes as a shell reads them. -/
def shellQuoted (cs : Octets) : String :=
  let text := cs.toText.toList
  if text.contains '\'' && text.all (fun c => fitsDoubleQuotes c && Text.isPrintable c) then
    "\"" ++ String.ofList text ++ "\""
  else "'" ++ singleQuoted false text

/-- The name of a file, quoted if it has to be. -/
def fileQuoted (cs : Octets) : String :=
  match cs.toText.toList with
  | [] => "''"
  | c :: rest =>
    if needsQuotes true c || rest.any (needsQuotes false) then shellQuoted cs else cs.toText

end SharedConstants.Command
