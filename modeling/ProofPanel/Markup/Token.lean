import ProofPanel.Markup.Escape

/-!
# Markup

A page as a sequence of tags and texts. Texts and attribute values are held as they are meant and
escaped where they are written.
-/
namespace ProofPanel.Markup

/-- An attribute in double quotes, or one without a value in single quotes. -/
inductive Attribute
  | valued (name value : String)
  | bare (name : String)
deriving DecidableEq

inductive Token
  | opening (name : String) (attributes : List Attribute)
  | closing (name : String)
  | text (content : List Char)
deriving DecidableEq

def Attribute.write : Attribute → List Char
  | .valued name value =>
    ' ' :: name.toList ++ '=' :: '\x22' :: escapeChars value.toList ++ ['\x22']
  | .bare name => ' ' :: name.toList ++ ['=', '\x27', '\x27']

def Token.write : Token → List Char
  | .opening name attributes => '<' :: name.toList ++ attributes.flatMap Attribute.write ++ ['>']
  | .closing name => '<' :: '/' :: name.toList ++ ['>']
  | .text content => escapeChars content

def write (tokens : List Token) : String := .ofList (tokens.flatMap Token.write)

def said (content : String) : Token := .text content.toList

def lineBreak : Token := .text ['\n']

def element (name : String) (attributes : List Attribute) (content : List Token) : List Token :=
  .opening name attributes :: content ++ [.closing name]

end ProofPanel.Markup
