import DocSelect.Token.Basic

/-!
# Operators

The binary operators and how strongly infix tokens bind. Assignments bind weakest, then fallbacks,
logic, comparisons, sums and products.
-/
namespace DocSelect

inductive BinaryOp where
  | equal
  | notEqual
  | less
  | greater
  | lessEqual
  | greaterEqual
  /-- whether a text matches a pattern -/
  | like
  | notLike
  | add
  | subtract
  | multiply
  | divide
  | modulo
  | and
  | or
  /-- the right side in place of a null or missing left side -/
  | coalesce
  deriving DecidableEq, Inhabited

namespace BinaryOp

def text : BinaryOp → String
  | equal => "=="
  | notEqual => "!="
  | less => "<"
  | greater => ">"
  | lessEqual => "<="
  | greaterEqual => ">="
  | like => "=~"
  | notLike => "!~"
  | add => "+"
  | subtract => "-"
  | multiply => "*"
  | divide => "/"
  | modulo => "%"
  | and => "&&"
  | or => "||"
  | coalesce => "??"

def ofToken? : TokenKind → Option BinaryOp
  | .equal => some equal
  | .notEqual => some notEqual
  | .less => some less
  | .greater => some greater
  | .lessEqual => some lessEqual
  | .greaterEqual => some greaterEqual
  | .like => some like
  | .notLike => some notLike
  | .plus => some add
  | .minus => some subtract
  | .star => some multiply
  | .slash => some divide
  | .percent => some modulo
  | .and => some and
  | .or => some or
  | .coalesce => some coalesce
  | _ => none

end BinaryOp

/-- How strongly an operator binds its operands. -/
inductive BindingPower where
  /-- binds nothing: the power at which an expression begins -/
  | default
  | assignment
  | coalesce
  | logical
  | relational
  | additive
  | multiplicative
  | unary
  deriving DecidableEq, Inhabited

namespace BindingPower

/-- The powers by strength, the weakest first. -/
def strength : BindingPower → Nat
  | default => 0
  | assignment => 1
  | coalesce => 2
  | logical => 3
  | relational => 4
  | additive => 5
  | multiplicative => 6
  | unary => 7

instance : LT BindingPower := ⟨fun a b => a.strength < b.strength⟩

instance (a b : BindingPower) : Decidable (a < b) :=
  inferInstanceAs (Decidable (a.strength < b.strength))

def ofToken? : TokenKind → Option BindingPower
  | .assign | .incrementBy | .decrementBy => some assignment
  | .coalesce => some coalesce
  | .and | .or => some logical
  | .equal | .notEqual | .like | .notLike => some relational
  | .greater | .greaterEqual | .less | .lessEqual => some relational
  | .plus | .minus => some additive
  | .star | .slash | .percent => some multiplicative
  | _ => none

end BindingPower

inductive SortDirection where
  | ascending
  | descending
  deriving DecidableEq, Inhabited

end DocSelect
