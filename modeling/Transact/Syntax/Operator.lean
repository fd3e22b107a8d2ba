import Transact.Token.Kind

namespace Transact

inductive UnaryOperator where
  | positive | negative | bitwiseNot
  deriving DecidableEq

inductive BinaryOperator where
  | add | subtract | bitwiseAnd | bitwiseOr | bitwiseXor
  | multiply | divide | modulo
  deriving DecidableEq

inductive ComparisonOperator where
  | equal | notEqual | lessThan | lessThanOrEqual | greaterThan | greaterThanOrEqual
  | notLessThan | notGreaterThan | like
  deriving DecidableEq

inductive LogicalOperator where
  | and | or
  deriving DecidableEq

inductive Quantifier where
  | all | any | some
  deriving DecidableEq

namespace UnaryOperator

def ofKind? : Kind → Option UnaryOperator
  | .mark .plus => some .positive
  | .mark .minus => some .negative
  | .mark .tilde => some .bitwiseNot
  | _ => none

def symbol : UnaryOperator → String
  | positive => "+"
  | negative => "-"
  | bitwiseNot => "~"

end UnaryOperator

namespace BinaryOperator

def ofKind? : Kind → Option BinaryOperator
  | .mark .plus => some .add
  | .mark .minus => some .subtract
  | .mark .ampersand => some .bitwiseAnd
  | .mark .pipe => some .bitwiseOr
  | .mark .caret => some .bitwiseXor
  | .mark .star => some .multiply
  | .mark .slash => some .divide
  | .mark .percent => some .modulo
  | _ => none

def symbol : BinaryOperator → String
  | add => "+"
  | subtract => "-"
  | bitwiseAnd => "&"
  | bitwiseOr => "|"
  | bitwiseXor => "^"
  | multiply => "*"
  | divide => "/"
  | modulo => "%"

def tier : BinaryOperator → Nat
  | multiply | divide | modulo => 2
  | _ => 1

end BinaryOperator

namespace ComparisonOperator

def ofKind? : Kind → Option ComparisonOperator
  | .mark .eq => some .equal
  | .mark .ltGt | .mark .notEq => some .notEqual
  | .mark .lt => some .lessThan
  | .mark .ltEq => some .lessThanOrEqual
  | .mark .gt => some .greaterThan
  | .mark .gtEq => some .greaterThanOrEqual
  | .mark .notLt => some .notLessThan
  | .mark .notGt => some .notGreaterThan
  | .keyword .LIKE => some .like
  | _ => none

def symbol : ComparisonOperator → String
  | equal => "="
  | notEqual => "<>"
  | lessThan => "<"
  | lessThanOrEqual => "<="
  | greaterThan => ">"
  | greaterThanOrEqual => ">="
  | notLessThan => "!<"
  | notGreaterThan => "!>"
  | like => "LIKE"

end ComparisonOperator

namespace LogicalOperator

def ofKind? : Kind → Option LogicalOperator
  | .keyword .AND => some .and
  | .keyword .OR => some .or
  | _ => none

def symbol : LogicalOperator → String
  | and => "AND"
  | or => "OR"

def tier : LogicalOperator → Nat
  | and => 2
  | or => 1

end LogicalOperator

namespace Quantifier

def ofKind? : Kind → Option Quantifier
  | .keyword .ALL => .some .all
  | .keyword .ANY => .some .any
  | .keyword .SOME => .some .some
  | _ => .none

def symbol : Quantifier → String
  | all => "ALL"
  | any => "ANY"
  | some => "SOME"

end Quantifier

end Transact
