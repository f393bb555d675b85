import ProofPanel.Config

/-!
# The stylesheet of the page
-/
namespace ProofPanel

/-- What the host provides for the page: its base style, and the places of the script and the
icons. Without a place there is no script. -/
structure Assets where
  baseStyle : String := ""
  script : String := ""
  continueIcon : String := ""
  pauseIcon : String := ""

namespace Page

/-- The base style, the font of goals and messages, and the user's own style. Quotes in the font's
name are left out. -/
def style (c : Config) (a : Assets) : String :=
  let font := c.fontFamily.toList.filter fun c => c != '\x27' && c != '\x22'
  a.baseStyle ++ "\npre \x7b\n    font-family: " ++ .ofList font ++ ";\n    font-size: " ++
    toString c.fontSize.toNat ++ "px;\n    white-space: pre-wrap;\n\x7d\n" ++ c.customStyle

/-- Writes a backslash into every `</`, which would end the style element early. -/
def guardClosing : List Char → List Char
  | '<' :: '/' :: rest => '<' :: '\\' :: '/' :: guardClosing rest
  | c :: rest => c :: guardClosing rest
  | [] => []

end Page

end ProofPanel
