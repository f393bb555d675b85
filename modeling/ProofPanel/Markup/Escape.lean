/-!
# Text in HTML

The five significant characters of HTML written as entities, so that any text may stand between
tags or in a quoted attribute value.
-/
namespace ProofPanel.Markup

def escapeChar (c : Char) : List Char :=
  if c = '&' then "&amp;".toList
  else if c = '<' then "&lt;".toList
  else if c = '>' then "&gt;".toList
  else if c = '\x22' then "&quot;".toList
  else if c = '\x27' then "&#039;".toList
  else [c]

def escapeChars (text : List Char) : List Char := text.flatMap escapeChar

def escape (text : String) : String := .ofList (escapeChars text.toList)

end ProofPanel.Markup
