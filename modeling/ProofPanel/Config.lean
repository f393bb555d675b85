import ProofPanel.Json.Decode

/-!
# Configuration

The panel's settings. They change by patches, each of which sets some of them and keeps the rest.
-/
namespace ProofPanel

structure Config where
  fontFamily : String := "monospace"
  fontSize : UInt32 := 14
  /-- Style rules added after the built-in ones. -/
  customStyle : String := ""
  /-- Shows every diagnostic on the cursor's line, also those left of the nearest one. -/
  allErrorsOnLine : Bool := false
deriving DecidableEq

structure Patch where
  fontFamily : Option String := none
  fontSize : Option UInt32 := none
  customStyle : Option String := none
  allErrorsOnLine : Option Bool := none
deriving DecidableEq

namespace Patch

def isEmpty (p : Patch) : Bool := p = {}

/-- The patch that a store of settings holds. Settings of the wrong type are passed over. -/
def ofStore (store : String → Option Json) : Patch where
  fontFamily := (store "editor.fontFamily").bind Json.asString?
  fontSize := (store "editor.fontSize").bind Json.word32?
  customStyle := (store "infoview.style").bind Json.asString?
  allErrorsOnLine := (store "infoview.allErrorsOnLine").bind Json.asBool?

def toJson (p : Patch) : Json := .objectOf
  [Json.optional "fontFamily" (p.fontFamily.map .str),
   Json.optional "fontSize" (p.fontSize.map fun n => .ofNat n.toNat),
   Json.optional "infoViewStyle" (p.customStyle.map .str),
   Json.optional "allErrorsOnLine" (p.allErrorsOnLine.map .bool)]

def ofJson? : Json → Option Patch := Json.record do
  let fontFamily ← Json.field? "fontFamily" Json.asString?
  let fontSize ← Json.field? "fontSize" Json.word32?
  let customStyle ← Json.field? "infoViewStyle" Json.asString?
  let allErrorsOnLine ← Json.field? "allErrorsOnLine" Json.asBool?
  return { fontFamily, fontSize, customStyle, allErrorsOnLine }

end Patch

namespace Config

def merge (c : Config) (p : Patch) : Config where
  fontFamily := p.fontFamily.getD c.fontFamily
  fontSize := p.fontSize.getD c.fontSize
  customStyle := p.customStyle.getD c.customStyle
  allErrorsOnLine := p.allErrorsOnLine.getD c.allErrorsOnLine

def toJson (c : Config) : Json := .object
  [("fontFamily", .str c.fontFamily), ("fontSize", .ofNat c.fontSize.toNat),
   ("infoViewStyle", .str c.customStyle), ("allErrorsOnLine", .bool c.allErrorsOnLine)]

def ofJson? : Json → Option Config := Json.record do
  let fontFamily ← Json.fieldOr "fontFamily" "monospace" Json.asString?
  let fontSize ← Json.fieldOr "fontSize" 14 Json.word32?
  let customStyle ← Json.fieldOr "infoViewStyle" "" Json.asString?
  let allErrorsOnLine ← Json.fieldOr "allErrorsOnLine" false Json.asBool?
  return { fontFamily, fontSize, customStyle, allErrorsOnLine }

end Config

end ProofPanel
