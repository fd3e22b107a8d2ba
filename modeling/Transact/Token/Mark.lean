namespace Transact

inductive Mark where
  | dot | doubleColon
  | plus | plusEq | minus | minusEq | star | starEq | slash | slashEq | percent | percentEq
  | ampersand | ampersandEq | caret | caretEq | pipe | pipeEq | tilde
  | eq | lt | ltEq | ltGt | gt | gtEq | notEq | notLt | notGt
  | comma | leftParen | rightParen | semicolon
  deriving DecidableEq

namespace Mark

def all : List Mark := [
  .dot, .doubleColon, .plus, .plusEq, .minus, .minusEq, .star, .starEq, .slash, .slashEq,
  .percent, .percentEq, .ampersand, .ampersandEq, .caret, .caretEq, .pipe, .pipeEq, .tilde, .eq,
  .lt, .ltEq, .ltGt, .gt, .gtEq, .notEq, .notLt, .notGt, .comma, .leftParen, .rightParen,
  .semicolon]

def spelling : Mark → List Char
  | .dot => ['.']
  | .doubleColon => [':', ':']
  | .plus => ['+']
  | .plusEq => ['+', '=']
  | .minus => ['-']
  | .minusEq => ['-', '=']
  | .star => ['*']
  | .starEq => ['*', '=']
  | .slash => ['/']
  | .slashEq => ['/', '=']
  | .percent => ['%']
  | .percentEq => ['%', '=']
  | .ampersand => ['&']
  | .ampersandEq => ['&', '=']
  | .caret => ['^']
  | .caretEq => ['^', '=']
  | .pipe => ['|']
  | .pipeEq => ['|', '=']
  | .tilde => ['~']
  | .eq => ['=']
  | .lt => ['<']
  | .ltEq => ['<', '=']
  | .ltGt => ['<', '>']
  | .gt => ['>']
  | .gtEq => ['>', '=']
  | .notEq => ['!', '=']
  | .notLt => ['!', '<']
  | .notGt => ['!', '>']
  | .comma => [',']
  | .leftParen => ['(']
  | .rightParen => [')']
  | .semicolon => [';']

def name : Mark → String
  | .dot => "Dot"
  | .doubleColon => "DoubleColon"
  | .plus => "Plus"
  | .plusEq => "PlusEq"
  | .minus => "Minus"
  | .minusEq => "MinusEq"
  | .star => "Star"
  | .starEq => "StarEq"
  | .slash => "Slash"
  | .slashEq => "SlashEq"
  | .percent => "Percent"
  | .percentEq => "PercentEq"
  | .ampersand => "Ampersand"
  | .ampersandEq => "AmpersandEq"
  | .caret => "Caret"
  | .caretEq => "CaretEq"
  | .pipe => "Pipe"
  | .pipeEq => "PipeEq"
  | .tilde => "Tilde"
  | .eq => "Eq"
  | .lt => "Lt"
  | .ltEq => "LtEq"
  | .ltGt => "LtGt"
  | .gt => "Gt"
  | .gtEq => "GtEq"
  | .notEq => "NotEq"
  | .notLt => "NotLt"
  | .notGt => "NotGt"
  | .comma => "Comma"
  | .leftParen => "LParen"
  | .rightParen => "RParen"
  | .semicolon => "Semicolon"

theorem mem_all (m : Mark) : m ∈ all := by cases m <;> decide

theorem spelling_ne_nil (m : Mark) : m.spelling ≠ [] := by cases m <;> decide

end Mark

end Transact
