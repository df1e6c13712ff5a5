/-!
# Words

A word is a run of ASCII letters, digits and underscores. It may be a name unless it starts
with a digit.
-/
namespace SharedConstants.Text

def isWordChar (c : Char) : Bool :=
  ('a' ≤ c && c ≤ 'z') || ('A' ≤ c && c ≤ 'Z') || ('0' ≤ c && c ≤ '9') || c = '_'

def isNameStart (c : Char) : Bool :=
  ('a' ≤ c && c ≤ 'z') || ('A' ≤ c && c ≤ 'Z') || c = '_'

theorem isWordChar_of_isNameStart {c : Char} (h : isNameStart c = true) :
    isWordChar c = true := by
  simp only [isNameStart, isWordChar, Bool.or_eq_true] at *
  rcases h with (h | h) | h <;> simp [h]

/-- Whether a text is a word that does not start with a digit. -/
def isName : List Char → Bool
  | [] => false
  | c :: cs => isNameStart c && cs.all isWordChar

end SharedConstants.Text
