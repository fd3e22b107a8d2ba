import Transact.Proofs.Token.Constant
import Transact.Syntax.Basic

namespace Transact

def Text.words (text : String) : List Word := (Cursor.ofSource text).tokens.1.map Token.word

namespace Text

theorem words_eq {text : String} {ws : List Word} (h : Reads text.toList ws) : words text = ws := by
  obtain ⟨ts, ht, hm, -⟩ := h.tokens .start
  rw [words, Cursor.ofSource, ht, hm]

theorem words_name {text : String} (h : Lexeme.IsName text.toList) :
    words text = [Word.name text] := by
  have hr : Reads (text.toList ++ []) [Word.name (String.ofList text.toList)] :=
    .name h nofun .nil
  rw [List.append_nil, String.ofList_toList] at hr
  exact words_eq hr

theorem words_quote (text : String) :
    words (Quoted.quote text) = [(.constant .varchar, .text text)] := by
  have hr : Reads ((Quoted.quote text).toList ++ []) _ := .quoted text nofun .nil
  rw [List.append_nil] at hr
  exact words_eq hr

end Text

namespace Word

def listed : List (List Word) → List Word
  | [] => []
  | [ws] => ws
  | ws :: rest => ws ++ mark .comma :: listed rest

def enclosed (ws : List Word) : List Word := mark .leftParen :: (ws ++ [mark .rightParen])

def terminator (terminated : Bool) : List Word := if terminated then [mark .semicolon] else []

def aliased : Option String → List Word
  | some text => keyword .AS :: Text.words text
  | none => []

def hinted (hints : List TableHint) : List Word :=
  if hints = [] then []
  else keyword .WITH :: enclosed (listed (hints.map fun h => [name h.spelling]))

def negated (negated : Bool) : List Word := if negated then [keyword .NOT] else []

end Word

open Word (keyword mark listed enclosed)

namespace Reference

def partWords (part : String) : List Word := if part = "" then [] else [Word.name part]

def dotted : List String → List Word
  | [] => []
  | [part] => partWords part
  | part :: parts => partWords part ++ mark .dot :: dotted parts

def words (r : Reference) : List Word := dotted r.parts

end Reference

def UnaryOperator.mark : UnaryOperator → Mark
  | positive => .plus
  | negative => .minus
  | bitwiseNot => .tilde

def BinaryOperator.mark : BinaryOperator → Mark
  | add => .plus
  | subtract => .minus
  | bitwiseAnd => .ampersand
  | bitwiseOr => .pipe
  | bitwiseXor => .caret
  | multiply => .star
  | divide => .slash
  | modulo => .percent

def ComparisonOperator.word : ComparisonOperator → Word
  | equal => Word.mark .eq
  | notEqual => Word.mark .ltGt
  | lessThan => Word.mark .lt
  | lessThanOrEqual => Word.mark .ltEq
  | greaterThan => Word.mark .gt
  | greaterThanOrEqual => Word.mark .gtEq
  | notLessThan => Word.mark .notLt
  | notGreaterThan => Word.mark .notGt
  | like => keyword .LIKE

def LogicalOperator.keyword : LogicalOperator → Keyword
  | and => .AND
  | or => .OR

def Quantifier.keyword : Quantifier → Keyword
  | all => .ALL
  | any => .ANY
  | some => .SOME

def Join.words : Join → List Word
  | first => []
  | inner => [keyword .INNER, keyword .JOIN]
  | left => [keyword .LEFT, keyword .JOIN]
  | right => [keyword .RIGHT, keyword .JOIN]
  | full => [keyword .FULL, keyword .OUTER, keyword .JOIN]
  | cross => [keyword .CROSS, keyword .JOIN]
  | crossApply => [keyword .CROSS, Word.name "APPLY"]
  | outerApply => [keyword .OUTER, Word.name "APPLY"]

mutual

def Expression.words : Expression → List Word
  | .unary _ operator operand => mark operator.mark :: operand.words
  | .grouped _ inner => enclosed inner.words
  | .null _ => [keyword .NULL]
  | .constant _ value => [value.word]
  | .subquery _ select => enclosed select.words
  | .reference name => name.words
  | .call _ function arguments => function.words ++ enclosed (listed (Expressions.words arguments))
  | .binary _ left operator right => left.words ++ mark operator.mark :: right.words

def Expressions.words : List Expression → List (List Word)
  | [] => []
  | e :: es => e.words :: Expressions.words es

def OptionalExpression.words (clause : Keyword) : Option Expression → List Word
  | some e => keyword clause :: e.words
  | none => []

def Predicate.words : Predicate → List Word
  | .not _ inner => keyword .NOT :: inner.words
  | .existence _ subquery => keyword .EXISTS :: enclosed subquery.words
  | .inSubquery _ left negated subquery =>
    left.words ++ (Word.negated negated ++ keyword .IN :: enclosed subquery.words)
  | .inList _ left negated list =>
    left.words ++ (Word.negated negated ++ keyword .IN ::
      enclosed (listed (Expressions.words list)))
  | .between _ left negated low high =>
    left.words ++ (Word.negated negated ++
      keyword .BETWEEN :: (low.words ++ keyword .AND :: high.words))
  | .grouped _ inner => enclosed inner.words
  | .quantified _ left operator quantifier subquery =>
    left.words ++ operator.word :: keyword quantifier.keyword :: enclosed subquery.words
  | .nullCheck _ left isNull =>
    left.words ++ keyword .IS :: (Word.negated (!isNull) ++ [keyword .NULL])
  | .comparison _ left operator right => left.words ++ operator.word :: right.words
  | .binary _ left operator right => left.words ++ keyword operator.keyword :: right.words

def OptionalPredicate.words (clause : Keyword) : Option Predicate → List Word
  | some p => keyword clause :: p.words
  | none => []

def Select.words : Select → List Word
  | ⟨_, top, columns, sources, filter, terminated⟩ =>
    keyword .SELECT :: (OptionalExpression.words .TOP top ++ (listed (Columns.words columns) ++
      (Sources.words .FROM sources ++ (OptionalPredicate.words .WHERE filter ++
        Word.terminator terminated))))

def Column.words : Column → List Word
  | .star _ none => [mark .star]
  | .star _ (some table) => Text.words table ++ [mark .dot, mark .star]
  | .value _ expression aliasName => expression.words ++ Word.aliased aliasName
  | .assignment _ target expression => target.words ++ mark .eq :: expression.words

def Columns.words : List Column → List (List Word)
  | [] => []
  | c :: cs => c.words :: Columns.words cs

def Source.words : Source → List Word
  | .table source => source.words
  | .subquery source => source.words

def Sources.words (clause : Keyword) : List Source → List Word
  | [] => []
  | s :: ss => keyword clause :: (s.words ++ Sources.joined ss)

def Sources.joined : List Source → List Word
  | [] => []
  | s :: ss => s.words ++ Sources.joined ss

def TableSource.words : TableSource → List Word
  | ⟨_, name, aliasName, join, hints, condition⟩ =>
    join.words ++ (name.words ++ (Word.aliased aliasName ++ (Word.hinted hints ++
      OptionalPredicate.words .ON condition)))

def SubquerySource.words : SubquerySource → List Word
  | ⟨_, subquery, aliasName, join, condition⟩ =>
    join.words ++ (enclosed subquery.words ++ (Word.aliased aliasName ++
      OptionalPredicate.words .ON condition))

end

def Row.words (r : Row) : List Word := enclosed (listed (Expressions.words r.values))

def Word.columns (columns : List Reference) : List Word :=
  if columns = [] then [] else enclosed (listed (columns.map Reference.words))

def InsertValues.words (s : InsertValues) : List Word :=
  keyword .INSERT :: (OptionalExpression.words .TOP s.top ++ (s.target.words ++
    (Word.hinted s.hints ++ (Word.columns s.columns ++ keyword .VALUES ::
      (listed (s.rows.map Row.words) ++ Word.terminator s.terminated)))))

def InsertSelect.words (s : InsertSelect) : List Word :=
  keyword .INSERT :: (OptionalExpression.words .TOP s.top ++ (s.target.words ++
    (Word.hinted s.hints ++ (Word.columns s.columns ++
      (s.select.words ++ Word.terminator s.terminated)))))

def Update.words (s : Update) : List Word :=
  keyword .UPDATE :: (OptionalExpression.words .TOP s.top ++ (s.target.words ++ keyword .SET ::
    (listed (Columns.words s.assignments) ++ (Sources.words .FROM s.sources ++
      (OptionalPredicate.words .WHERE s.filter ++ Word.terminator s.terminated)))))

def Delete.words (s : Delete) : List Word :=
  keyword .DELETE :: (OptionalExpression.words .TOP s.top ++ (s.target.words ++
    (Sources.words .FROM s.sources ++ (OptionalPredicate.words .WHERE s.filter ++
      Word.terminator s.terminated))))

mutual

def Statement.words : Statement → List Word
  | .select statement => statement.words
  | .insertValues statement => statement.words
  | .insertSelect statement => statement.words
  | .update statement => statement.words
  | .delete statement => statement.words
  | .conditional statement => statement.words
  | .loop statement => statement.words
  | .block statement => statement.words
  | .empty _ => [mark .semicolon]

def If.words : If → List Word
  | ⟨_, test, thenBranch, elseBranch⟩ =>
    keyword .IF :: (test.words ++ (thenBranch.words ++ Else.words elseBranch))

def Else.words : Option Statement → List Word
  | some branch => keyword .ELSE :: branch.words
  | none => []

def While.words : While → List Word
  | ⟨_, test, body⟩ => keyword .WHILE :: (test.words ++ body.words)

def Block.words : Block → List Word
  | ⟨_, body⟩ => keyword .BEGIN :: (Statements.words body ++ [keyword .END])

def Statements.words : List Statement → List Word
  | [] => []
  | s :: ss => s.words ++ Statements.words ss

end

theorem Expressions.words_eq (es : List Expression) :
    Expressions.words es = es.map Expression.words := by
  induction es with
  | nil => rfl
  | cons e es ih => rw [Expressions.words, ih, List.map_cons]

theorem Columns.words_eq (cs : List Column) : Columns.words cs = cs.map Column.words := by
  induction cs with
  | nil => rfl
  | cons c cs ih => rw [Columns.words, ih, List.map_cons]

theorem Sources.joined_eq (ss : List Source) :
    Sources.joined ss = (ss.map Source.words).flatten := by
  induction ss with
  | nil => rfl
  | cons s ss ih => rw [Sources.joined, ih, List.map_cons, List.flatten_cons]

theorem Statements.words_eq (ss : List Statement) :
    Statements.words ss = (ss.map Statement.words).flatten := by
  induction ss with
  | nil => rfl
  | cons s ss ih => rw [Statements.words, ih, List.map_cons, List.flatten_cons]

end Transact
