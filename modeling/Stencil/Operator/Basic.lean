/-!
# Operators

The operators of expressions by what they do, with the symbols they are written as.
-/

namespace Stencil

inductive UnaryOp where
  | not
  | negate
  | plus
deriving DecidableEq

/-- Operators that change the local variable they stand before. -/
inductive UpdateOp where
  | increment
  | decrement
deriving DecidableEq

inductive ArithmeticOp where
  | add
  | subtract
  | multiply
  | divide
  | remainder
deriving DecidableEq

inductive EqualityOp where
  | equal
  | notEqual
  | strictEqual
  | strictNotEqual
deriving DecidableEq

inductive OrderOp where
  | less
  | lessOrEqual
  | greater
  | greaterOrEqual
deriving DecidableEq

/-- Operators that evaluate their right operand on demand. -/
inductive LogicalOp where
  | and
  | or
  | coalesce
deriving DecidableEq

inductive BinaryOp where
  | arithmetic (op : ArithmeticOp)
  | equality (op : EqualityOp)
  | order (op : OrderOp)
  | logical (op : LogicalOp)
deriving DecidableEq

/-- An operator written in front of its operand. -/
inductive PrefixOp where
  | unary (op : UnaryOp)
  | update (op : UpdateOp)
deriving DecidableEq

/-! ## Symbols -/

def UnaryOp.symbol : UnaryOp → String
  | .not => "!"
  | .negate => "-"
  | .plus => "+"

def UpdateOp.symbol : UpdateOp → String
  | .increment => "++"
  | .decrement => "--"

def ArithmeticOp.symbol : ArithmeticOp → String
  | .add => "+"
  | .subtract => "-"
  | .multiply => "*"
  | .divide => "/"
  | .remainder => "%"

def EqualityOp.symbol : EqualityOp → String
  | .equal => "=="
  | .notEqual => "!="
  | .strictEqual => "==="
  | .strictNotEqual => "!=="

def OrderOp.symbol : OrderOp → String
  | .less => "<"
  | .lessOrEqual => "<="
  | .greater => ">"
  | .greaterOrEqual => ">="

def LogicalOp.symbol : LogicalOp → String
  | .and => "&&"
  | .or => "||"
  | .coalesce => "??"

def BinaryOp.symbol : BinaryOp → String
  | .arithmetic op => op.symbol
  | .equality op => op.symbol
  | .order op => op.symbol
  | .logical op => op.symbol

def PrefixOp.symbol : PrefixOp → String
  | .unary op => op.symbol
  | .update op => op.symbol

def PrefixOp.all : List PrefixOp :=
  [.unary .not, .unary .negate, .unary .plus, .update .increment, .update .decrement]

def BinaryOp.all : List BinaryOp := [
  .arithmetic .add, .arithmetic .subtract, .arithmetic .multiply, .arithmetic .divide,
  .arithmetic .remainder, .equality .equal, .equality .notEqual, .equality .strictEqual,
  .equality .strictNotEqual, .order .less, .order .lessOrEqual, .order .greater,
  .order .greaterOrEqual, .logical .and, .logical .or, .logical .coalesce
]

/-- The prefix operator that a symbol writes. -/
def PrefixOp.ofSymbol? (symbol : String) : Option PrefixOp := all.find? (·.symbol == symbol)

/-- The binary operator that a symbol writes. -/
def BinaryOp.ofSymbol? (symbol : String) : Option BinaryOp := all.find? (·.symbol == symbol)

theorem PrefixOp.ofSymbol?_symbol (op : PrefixOp) : ofSymbol? op.symbol = some op := by
  rcases op with op | op <;> cases op <;> decide

theorem BinaryOp.ofSymbol?_symbol (op : BinaryOp) : ofSymbol? op.symbol = some op := by
  rcases op with op | op | op | op <;> cases op <;> decide

end Stencil
