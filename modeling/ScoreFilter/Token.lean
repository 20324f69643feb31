namespace ScoreFilter

inductive TokenKind where
  | quoted
  -- A quote that is never closed, with all that follows it.
  | unclosed
  | number
  | keyword
  | mathFunction
  | sampleFunction
  | name
  | relation
  | mark
deriving DecidableEq

def TokenKind.label : TokenKind → String
  | .quoted => "string"
  | .unclosed => "unterminated_string"
  | .number => "number"
  | .keyword => "keyword"
  | .mathFunction => "math_function"
  | .sampleFunction => "sample_function"
  | .name => "variable"
  | .relation => "relation"
  | .mark => "misc_operator"

def TokenKind.isLiteral : TokenKind → Bool
  | .quoted | .unclosed | .number => true
  | _ => false

structure Token where
  kind : TokenKind
  text : String
  start : Nat
  stop : Nat
deriving DecidableEq

end ScoreFilter
