/-!
# White space

Two classes of characters count as space. Value text is separated by *blanks*, the
characters of Unicode's White_Space property. Trimming and the search for the end of a
token use the wider class of *spaces*, which also holds the four information separators.
-/
namespace SharedConstants.Text

/-- Whether a character has Unicode's White_Space property. -/
def isBlank (c : Char) : Bool :=
  let n := c.toNat
  (0x09 ≤ n && n ≤ 0x0D) || n == 0x20 || n == 0x85 || n == 0xA0 || n == 0x1680 ||
    (0x2000 ≤ n && n ≤ 0x200A) || n == 0x2028 || n == 0x2029 || n == 0x202F ||
    n == 0x205F || n == 0x3000

/-- Whether a character is a blank or one of the separators U+001C to U+001F. -/
def isSpace (c : Char) : Bool :=
  isBlank c || (0x1C ≤ c.toNat && c.toNat ≤ 0x1F)

theorem isSpace_of_isBlank {c : Char} (h : isBlank c = true) : isSpace c = true := by
  simp [isSpace, h]

def trimLeft (cs : List Char) : List Char := cs.dropWhile isSpace

def trimRight (cs : List Char) : List Char := (cs.reverse.dropWhile isSpace).reverse

def trim (cs : List Char) : List Char := trimRight (trimLeft cs)

/-- The lower-case form of an ASCII letter; every other character stands for itself. -/
def lowerAscii (c : Char) : Char :=
  if 'A' ≤ c ∧ c ≤ 'Z' then Char.ofNat (c.toNat + 32) else c

/-- A keyword as users may type it: surrounding space and the case of ASCII letters do
not matter. No keyword of the documents contains `k`, so the one non-ASCII letter whose
lower-case form is a keyword letter needs no rule. -/
def keyword (text : String) : String :=
  String.ofList ((trim text.toList).map lowerAscii)

end SharedConstants.Text
