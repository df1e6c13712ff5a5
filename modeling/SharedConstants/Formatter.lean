import SharedConstants.Diagnostic

/-!
# Formatters

A formatter is a command that lays out the text of an artifact. It reads the text and writes
the new one. What it does to files stays.
-/
namespace SharedConstants

/-- What comes of running a formatter. Work is given up where its output is no text or the
time limit is no time. -/
inductive FormatterReply
  | formatted (text : String)
  | failed (fault : FormatterFault)
  | givenUp

/-- Formatters as generation sees them: from a command and a text to a reply. -/
abbrev Formatters (m : Type → Type) := List String → String → m FormatterReply

end SharedConstants
