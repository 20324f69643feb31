import ScoreFilter.Text.Bytes
import ScoreFilter.Token.Lexeme

namespace ScoreFilter

inductive Piece where
  | lexeme (kind : TokenKind) (text : List Char)
  | gap (c : Char)
deriving DecidableEq

namespace Piece

def text : Piece → List Char
  | .lexeme _ text => text
  | .gap c => [c]

def ofText (v : Vocabulary) (cs : List Char) : List Piece :=
  match _ : Lexeme.proper? v cs with
  | some s => .lexeme s.kind s.text :: ofText v s.rest
  | none =>
    match cs with
    | [] => []
    | c :: rest => .gap c :: ofText v rest
termination_by cs.length
decreasing_by
  · exact Lexeme.proper?_shorter ‹_›
  · simp

def place (offset : Nat) : List Piece → List Token
  | [] => []
  | .lexeme kind text :: rest =>
    ⟨kind, String.ofList text, offset, offset + Text.byteLength text⟩ ::
      place (offset + Text.byteLength text) rest
  | .gap c :: rest => place (offset + c.utf8Size) rest

theorem flatMap_text_ofText (v : Vocabulary) (cs : List Char) :
    (ofText v cs).flatMap text = cs := by
  fun_induction ofText v cs with
  | case1 cs s found ih =>
    rw [List.flatMap_cons, ih]
    exact Lexeme.split?_append (Lexeme.proper?_eq_some.mp found).1
  | case2 => rfl
  | case3 c rest found ih => simp [ih, text]

end Piece

namespace Token

def ofChars (v : Vocabulary) (cs : List Char) : List Token :=
  Piece.place 0 (Piece.ofText v cs)

def tokenize (v : Vocabulary) (expression : String) : List Token :=
  ofChars v expression.toList

end Token

end ScoreFilter
