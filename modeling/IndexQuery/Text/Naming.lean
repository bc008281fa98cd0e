import IndexQuery.Path
import IndexQuery.Text.Letters
import IndexQuery.Text.UpperCase

/-! Names made from paths: capitalised field names and member names. -/

namespace IndexQuery.Text

/-- The text with its first character in upper case. -/
def capitalize (text : String) : String :=
  match text.toList with
  | [] => ""
  | first :: rest => String.ofList (upperCase first ++ rest)

/-- Whether a character can stand in a member name. -/
def isNameCharacter (c : Char) : Bool := c = '_' || isLetterOrNumber c

/-- Replaces each run of characters that no name can hold by one underscore. -/
def joinRuns : (insideRun : Bool) → List Char → List Char
  | _, [] => []
  | insideRun, c :: rest =>
    if isNameCharacter c then c :: joinRuns false rest
    -- Only the first character of a run leaves an underscore.
    else if insideRun then joinRuns true rest
    else '_' :: joinRuns true rest

/-- The text with every run of separators replaced by an underscore. -/
def identifier (text : String) : String := String.ofList (joinRuns false text.toList)

end IndexQuery.Text

namespace IndexQuery.Path

/-- The name of the member that stands for a path: its dotted text with separators joined. -/
def memberName (path : Path) : String := Text.identifier path.dotted

end IndexQuery.Path
