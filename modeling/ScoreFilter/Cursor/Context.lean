import ScoreFilter.Cursor.Lookback
import ScoreFilter.Text.Bytes
import ScoreFilter.Token.Piece

namespace ScoreFilter

inductive Context where
  -- At the beginning, in a group, or after a logical word.
  | startOfExpression
  | memberAccess (scorer : String)
  | mathArgument
  | searchArgument
  | afterGroup
  | afterField (field : Field)
  -- After a field with categories and a relation.
  | categoryValue (field : Field)
  | scalarValue (field : Field)
  -- After a relation that follows no field.
  | chainComparison
  | afterComparison
  | unknown
deriving DecidableEq

namespace Context

def label : Context → String
  | .startOfExpression => "start_of_expression"
  | .memberAccess _ => "member_access"
  | .mathArgument => "math_argument"
  | .searchArgument => "search_argument"
  | .afterGroup => "after_group"
  | .afterField _ => "after_field"
  | .categoryValue _ => "category_value"
  | .scalarValue _ => "scalar_value"
  | .chainComparison => "chain_comparison"
  | .afterComparison => "after_comparison"
  | .unknown => "unknown"

def scorer? : Context → Option String
  | .memberAccess scorer => some scorer
  | _ => none

def field? : Context → Option Field
  | .afterField f | .categoryValue f | .scalarValue f => some f
  | _ => none

def connectors : List String :=
  ["and", "or", "not"]

def afterPoint (scorer : Option Token) : Context :=
  match scorer with
  | some t => .memberAccess t.text
  | none => .unknown

def afterParenthesis (function : Option Token) : Context :=
  match function.map Token.kind with
  | some .mathFunction => .mathArgument
  | some .sampleFunction => .searchArgument
  | _ => .startOfExpression

def afterRelation (field : Option Field) : Context :=
  match field with
  | none => .chainComparison
  | some f => if f.categories?.isSome then .categoryValue f else .scalarValue f

def afterOther (l : Lookback) (catalog : Catalog) (previous : Token) : Context :=
  if previous.kind = .relation then afterRelation (l.field? 2 catalog)
  else if previous.kind.isLiteral && (l.token? 2).any (·.kind == .relation) then .afterComparison
  else if previous.kind = .keyword && connectors.contains previous.text then .startOfExpression
  else .unknown

def ofLookback (l : Lookback) (catalog : Catalog) : Context :=
  match l.token? 1 with
  | none => .startOfExpression
  | some previous =>
    if previous.text = "." then afterPoint (l.token? 2)
    else if previous.text = "(" then afterParenthesis (l.token? 2)
    else if previous.text = ")" then .afterGroup
    else
      match l.field? 1 catalog with
      | some f => .afterField f
      | none => afterOther l catalog previous

end Context

def Lookback.at (v : Vocabulary) (input : List Char) (cursor : Nat) : Lookback :=
  ofTokens (Token.ofChars v (Text.before cursor input)) (Text.clamp cursor input)

def Context.at (v : Vocabulary) (catalog : Catalog) (input : String) (cursor : Nat) : Context :=
  ofLookback (Lookback.at v input.toList cursor) catalog

end ScoreFilter
