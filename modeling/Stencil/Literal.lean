import Stencil.Value.Basic
/-!
# Literals

A literal is written as a keyword, a quoted string or a number; the white space around it does not
count. `Literal.decode` gives the value it stands for.
-/

namespace Stencil

/-- Why a token is no literal. -/
inductive LiteralFault where
  | empty
  | unterminated (token : String)
  | unescapedQuote (quote : Char) (token : String)
  | invalidCode (digits : String)
  | unknownEscape (c : Char)
  | danglingEscape (token : String)
  | unrecognised (token : String)
deriving DecidableEq

def LiteralFault.message : LiteralFault → String
  | .empty => "empty literal"
  | .unterminated token => "unterminated string literal " ++ token
  | .unescapedQuote quote token =>
    "unescaped " ++ String.singleton quote ++ " inside string literal " ++ token
  | .invalidCode digits => "invalid unicode escape \\u" ++ digits
  | .unknownEscape c => "unknown escape \\" ++ String.singleton c
  | .danglingEscape token => "dangling escape in " ++ token
  | .unrecognised token => "`" ++ token ++ "` is not a string, number or keyword literal"

namespace Literal

/-- The character that a backslash and `c` stand for. -/
def escape? (c : Char) : Option Char :=
  if c = 'n' then some '\n'
  else if c = 't' then some '\t'
  else if c = 'r' then some '\r'
  else if c = '0' then some '\x00'
  else if c = '\\' ∨ c = '"' ∨ c = '\'' then some c
  else none

/-- The character that four characters after `\u` stand for. -/
def scalar? (digits : List Char) : Option Char := do
  let n ← readHex? digits
  if h : n.isValidChar then some (.ofNatAux n h) else none

/-- Decodes what stands between the quotes of `token`. -/
def unescape (quote : Char) (token : String) : List Char → Except LiteralFault (List Char)
  | [] => .ok []
  | ['\\'] => .error (.danglingEscape token)
  | '\\' :: 'u' :: a :: b :: c :: d :: rest =>
    match scalar? [a, b, c, d] with
    | some e => return e :: (← unescape quote token rest)
    | none => .error (.invalidCode (.ofList [a, b, c, d]))
  | '\\' :: 'u' :: rest => .error (.invalidCode (.ofList rest))
  | '\\' :: c :: rest =>
    match escape? c with
    | some e => return e :: (← unescape quote token rest)
    | none => .error (.unknownEscape c)
  | c :: rest => do
    if c = quote then throw (.unescapedQuote quote token)
    return c :: (← unescape quote token rest)

/-- Decodes `token`, which is `quote` followed by `rest`. -/
def decodeString (quote : Char) (token : String) (rest : List Char) : Except LiteralFault Value := do
  if rest.getLast? ≠ some quote then throw (.unterminated token)
  return .string (.ofList (← unescape quote token rest.dropLast))

/-- A number may have underscores anywhere; it is an integer if it fits 64 bits. -/
def decodeNumber (token : List Char) : Except LiteralFault Value :=
  let digits := token.filter (· ≠ '_')
  match readInt64? digits with
  | some n => .ok (.integer n)
  | none =>
    match readBinary64? digits with
    | some x => if x.isFinite then .ok (.real x) else .error (.unrecognised (.ofList token))
    | none => .error (.unrecognised (.ofList token))

def decode (token : String) : Except LiteralFault Value :=
  let trimmed := Text.trim token.toList
  let word := String.ofList trimmed
  if word = "true" then .ok (.bool true)
  else if word = "false" then .ok (.bool false)
  else if word = "null" then .ok .null
  else if word = "undefined" then .ok .undefined
  else
    match trimmed with
    | [] => .error .empty
    | c :: rest =>
      if c = '"' ∨ c = '\'' then decodeString c word rest else decodeNumber trimmed

end Literal

end Stencil
