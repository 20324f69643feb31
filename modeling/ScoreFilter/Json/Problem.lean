import ScoreFilter.Text.Quoted

namespace ScoreFilter.Json

inductive Found where
  | null
  | bool (value : Bool)
  | int (value : Int)
  | float (text : String)
  | str (value : String)
  | sequence
  | map

def Found.describe : Found → String
  | .null => "null"
  | .bool true => "boolean `true`"
  | .bool false => "boolean `false`"
  | .int n => "integer `" ++ toString n ++ "`"
  | .float text => "floating point `" ++ text ++ "`"
  | .str s => "string " ++ Text.quoted s
  | .sequence => "sequence"
  | .map => "map"

inductive Problem where
  | malformed
  | wrongType (found : Found) (wanted : String)
  | wrongValue (found : Int) (wanted : String)
  | missing (key : String)
  | repeated (key : String)
  | unknownWord (word : String) (known : List String)
  -- A sequence ends where it still has to give an element.
  | tooShort (length : Nat) (wanted : String)

def wordList (words : List String) : String :=
  String.intercalate ", " (words.map fun w => "`" ++ w ++ "`")

-- What to tell the user about a document of the wrong shape; nothing of one that is no JSON.
def Problem.message? : Problem → Option String
  | .malformed => none
  | .wrongType found wanted => some ("invalid type: " ++ found.describe ++ ", expected " ++ wanted)
  | .wrongValue found wanted =>
    some ("invalid value: " ++ (Found.int found).describe ++ ", expected " ++ wanted)
  | .missing key => some ("missing field `" ++ key ++ "`")
  | .repeated key => some ("duplicate field `" ++ key ++ "`")
  | .unknownWord word known =>
    some ("unknown variant `" ++ word ++ "`, expected one of " ++ wordList known)
  | .tooShort length wanted =>
    some ("invalid length " ++ toString length ++ ", expected " ++ wanted)

def Problem.message (p : Problem) : String :=
  p.message?.getD "not a JSON document"

end ScoreFilter.Json
