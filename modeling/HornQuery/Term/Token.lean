import HornQuery.Failure

namespace HornQuery

inductive TokenKind where
  | name (text : String)
  | quoted (text : String)
  | var (name : String)
  | integer (magnitude : Nat)
  | float (value : Float)
  | string (text : String)
  | punctuation (mark : Char)
  | clauseEnd
deriving Inhabited

structure Token where
  kind : TokenKind
  start : Nat
  stop : Nat
  /-- Whether white space or a comment comes right before the token. -/
  layoutBefore : Bool
deriving Inhabited

def Token.isMark (token : Token) (mark : Char) : Bool :=
  match token.kind with
  | .punctuation other => other = mark
  | _ => false

inductive SyntaxFault where
  | unexpectedCharacter (c : Char)
  | radixIntegerOutOfRange
  | integerOutOfRange (digits : String)
  | lineEndInCharacterCode
  | hexEscape
  | unicodeEscape
  | characterCode
  | unknownEscape (c : Char)
  | nestedTooDeep (limit : Nat)
  | unexpectedMark (mark : Char)
  | unexpectedClauseEnd
  | missingMark (mark : Char)

namespace SyntaxFault

def reason : SyntaxFault → String
  | .unexpectedCharacter c => s!"unexpected character `{c}`"
  | .radixIntegerOutOfRange => "integer out of range"
  | .integerOutOfRange digits => s!"integer `{digits}` out of range"
  | .lineEndInCharacterCode => "invalid escape"
  | .hexEscape => "invalid hex escape"
  | .unicodeEscape => "invalid unicode escape"
  | .characterCode => "invalid character code"
  | .unknownEscape c => s!"unknown escape `\\{c}`"
  | .nestedTooDeep limit => s!"term nested deeper than {limit} levels"
  | .unexpectedMark mark => s!"unexpected `{mark}`"
  | .unexpectedClauseEnd => "unexpected end of clause"
  | .missingMark mark => s!"expected `{mark}`"

def foundAt (fault : SyntaxFault) (position : Nat) : ReadError :=
  .syntaxFault fault.reason position

end SyntaxFault

end HornQuery
