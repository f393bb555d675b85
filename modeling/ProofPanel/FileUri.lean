import ProofPanel.Text.Percent

/-!
# File URIs

File names as `file` URIs and back. Backslashes become slashes and every path starts with one; on
the way back a drive letter loses the slash before it.
-/
namespace ProofPanel.FileUri

def scheme : List Char := "file://".toList

def slashed (fileName : List Char) : List Char :=
  match fileName.map fun c => if c = '\\' then '/' else c with
  | '/' :: rest => '/' :: rest
  | path => '/' :: path

/-- Whether a path is a drive letter's, behind a slash that does not belong to it. -/
def startsWithDrive : List Char → Bool
  | '/' :: drive :: ':' :: _ => drive.isAlpha
  | _ => false

def dropDriveSlash (path : List Char) : List Char :=
  if startsWithDrive path then path.drop 1 else path

def ofFileName (fileName : String) : String :=
  .ofList (scheme ++ (Percent.encodePath (.ofList (slashed fileName.toList))).toList)

/-- The file name in a `file` URI; a host before the path is passed over. -/
def toFileName? (uri : String) : Option String :=
  match scheme.isPrefixOf? uri.toList with
  | none => none
  | some rest =>
    match rest.dropWhile (· != '/') with
    | [] => none
    | path => some (.ofList (dropDriveSlash (Percent.decode (.ofList path)).toList))

end ProofPanel.FileUri
