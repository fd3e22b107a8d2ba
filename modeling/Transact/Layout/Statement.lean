import Transact.Layout.Doc
import Transact.Traversal.Children

namespace Transact

def clauseWidth : Nat := 8

namespace Layout

def clause (word : String) : Doc := .text (word ++ spaces (clauseWidth - word.length))

def body (d : Doc) : Doc := .nest clauseWidth d

def terminator (terminated : Bool) : Doc := if terminated then .text ";" else .nil

def aliasName (name : Option String) : Doc := Doc.ofOption (fun n => .text " AS " ++ .text n) name

def hints (found : List TableHint) : Doc :=
  if found.isEmpty then .nil
  else .text (" WITH (" ++ ", ".intercalate (found.map TableHint.spelling) ++ ")")

def top (value : Option Doc) : Doc := Doc.ofOption (fun d => .text "TOP " ++ d ++ .line) value

def sources (entries : List Doc) : Doc :=
  if entries.isEmpty then .nil else .line ++ clause "FROM" ++ body (Doc.join .line entries)

def filter (condition : Option Doc) : Doc :=
  Doc.ofOption (fun d => .line ++ clause "WHERE" ++ body d) condition

def condition (on : Option Doc) : Doc :=
  Doc.ofOption (fun d => .nest 2 (.line ++ .text "ON " ++ .nest 2 d)) on

def subquery (select : Doc) : Doc :=
  .text "(" ++ .line ++ .nest 2 select ++ .line ++ .text ")"

def list (opening : String) (items : List Doc) : Doc :=
  .text opening ++ .line ++ .nest 2 (Doc.commaLines items) ++ .line ++ .text ")"

def infixed (left : Doc) (symbol : String) (right : Doc) : Doc :=
  left ++ .text (" " ++ symbol ++ " ") ++ right

end Layout

def Constant.literal : Constant → String
  | int number => toString number.toInt
  | bigInt number => toString number.toInt
  | numeric number => number.toText
  | real number => number.exponential
  | varchar text => Text.Quoted.quote text
  | nvarchar text => "N" ++ Text.Quoted.quote text

def Expression.isUnary : Expression → Bool
  | unary .. => true
  | _ => false

/-- Two signs in a row are kept apart: `- -x` and not `--x`, which would begin a comment. -/
def UnaryOperator.text (operator : UnaryOperator) (operand : Expression) : String :=
  if operand.isUnary && operator != .bitwiseNot then operator.symbol ++ " " else operator.symbol

def Reference.layout (r : Reference) : Doc := .text r.identifier

mutual

def Expression.layout : Expression → Doc
  | .unary _ operator operand => .text (operator.text operand) ++ operand.layout
  | .grouped _ inner => .text "(" ++ inner.layout ++ .text ")"
  | .null _ => .text "NULL"
  | .constant _ value => .text value.literal
  | .subquery _ select => Layout.subquery select.layout
  | .reference name => name.layout
  | .call _ function arguments =>
    function.layout ++ .text "(" ++ Doc.commas (Expressions.layouts arguments) ++ .text ")"
  | .binary _ left operator right => Layout.infixed left.layout operator.symbol right.layout

def Expressions.layouts : List Expression → List Doc
  | [] => []
  | e :: es => e.layout :: Expressions.layouts es

def OptionalExpression.layout : Option Expression → Option Doc
  | some e => some e.layout
  | none => none

def Predicate.layout : Predicate → Doc
  | .not _ inner => .text "NOT " ++ inner.layout
  | .existence _ subquery => .text "EXISTS " ++ Layout.subquery subquery.layout
  | .inSubquery _ left negated subquery =>
    left.layout ++ .text (if negated then " NOT IN " else " IN ") ++
      Layout.subquery subquery.layout
  | .inList _ left negated list =>
    left.layout ++
      Layout.list (if negated then " NOT IN (" else " IN (") (Expressions.layouts list)
  | .between _ left negated low high =>
    left.layout ++ .text (if negated then " NOT BETWEEN " else " BETWEEN ") ++ low.layout ++
      .text " AND " ++ high.layout
  | .grouped _ inner => .text "(" ++ .nest 2 (.line ++ inner.layout ++ .line) ++ .text ")"
  | .quantified _ left operator quantifier subquery =>
    left.layout ++ .text (" " ++ operator.symbol ++ " " ++ quantifier.symbol ++ " ") ++
      Layout.subquery subquery.layout
  | .nullCheck _ left isNull =>
    left.layout ++ .text (if isNull then " IS NULL" else " IS NOT NULL")
  | .comparison _ left operator right => Layout.infixed left.layout operator.symbol right.layout
  | .binary _ left operator right =>
    left.layout ++ .line ++ .text operator.symbol ++ .text " " ++ right.layout

def OptionalPredicate.layout : Option Predicate → Option Doc
  | some p => some p.layout
  | none => none

def Select.layout : Select → Doc
  | ⟨_, top, columns, sources, filter, terminated⟩ =>
    Layout.clause "SELECT" ++ Layout.top (OptionalExpression.layout top) ++
      Layout.body (Doc.commaLines (Columns.layouts columns)) ++
      Layout.sources (Sources.layouts sources) ++
      Layout.filter (OptionalPredicate.layout filter) ++ Layout.terminator terminated

def Column.layout : Column → Doc
  | .star _ none => .text "*"
  | .star _ (some table) => .text table ++ .text "." ++ .text "*"
  | .value _ expression aliasName => expression.layout ++ Layout.aliasName aliasName
  | .assignment _ target expression => target.layout ++ .text " = " ++ expression.layout

def Columns.layouts : List Column → List Doc
  | [] => []
  | c :: cs => c.layout :: Columns.layouts cs

def Source.layout : Source → Doc
  | .table source => source.layout
  | .subquery source => source.layout

def Sources.layouts : List Source → List Doc
  | [] => []
  | s :: ss => s.layout :: Sources.layouts ss

def TableSource.layout : TableSource → Doc
  | ⟨_, name, aliasName, join, hints, condition⟩ =>
    .text join.introduction ++ name.layout ++ Layout.aliasName aliasName ++ Layout.hints hints ++
      Layout.condition (OptionalPredicate.layout condition)

def SubquerySource.layout : SubquerySource → Doc
  | ⟨_, subquery, aliasName, join, condition⟩ =>
    .text join.introduction ++ .text "(" ++ .nest 2 (.line ++ subquery.layout) ++ .line ++
      .text ")" ++ Layout.aliasName aliasName ++
      Layout.condition (OptionalPredicate.layout condition)

end

def Row.layout (r : Row) : Doc :=
  .text "(" ++ Doc.commas (Expressions.layouts r.values) ++ .text ")"

namespace Layout

def insertHead (top : Option Expression) (target : Reference) (found : List TableHint) : Doc :=
  clause "INSERT" ++ Layout.top (OptionalExpression.layout top) ++ body target.layout ++ hints found

def insertColumns (columns : List Reference) : Doc :=
  if columns.isEmpty then .nil else body (list " (" (columns.map Reference.layout))

end Layout

def InsertValues.layout (s : InsertValues) : Doc :=
  Layout.insertHead s.top s.target s.hints ++ Layout.insertColumns s.columns ++ .line ++
    Layout.clause "VALUES" ++ Layout.body (Doc.commaLines (s.rows.map Row.layout)) ++
    Layout.terminator s.terminated

def InsertSelect.layout (s : InsertSelect) : Doc :=
  Layout.insertHead s.top s.target s.hints ++ Layout.insertColumns s.columns ++ .line ++
    s.select.layout ++ Layout.terminator s.terminated

def Update.layout (s : Update) : Doc :=
  Layout.clause "UPDATE" ++ Layout.top (OptionalExpression.layout s.top) ++
    Layout.body s.target.layout ++ .line ++ Layout.clause "SET" ++
    Layout.body (Doc.commaLines (Columns.layouts s.assignments)) ++
    Layout.sources (Sources.layouts s.sources) ++
    Layout.filter (OptionalPredicate.layout s.filter) ++ Layout.terminator s.terminated

def Delete.layout (s : Delete) : Doc :=
  Layout.clause "DELETE" ++ Layout.top (OptionalExpression.layout s.top) ++
    Layout.body s.target.layout ++ Layout.sources (Sources.layouts s.sources) ++
    Layout.filter (OptionalPredicate.layout s.filter) ++ Layout.terminator s.terminated

def Statement.isBlock : Statement → Bool
  | block _ => true
  | _ => false

/-- A branch is indented unless it is a block. -/
def Layout.branch (isBlock : Bool) (d : Doc) : Doc := if isBlock then d else .nest 2 d

mutual

def Statement.layout : Statement → Doc
  | .select statement => statement.layout
  | .insertValues statement => statement.layout
  | .insertSelect statement => statement.layout
  | .update statement => statement.layout
  | .delete statement => statement.layout
  | .conditional statement => statement.layout
  | .loop statement => statement.layout
  | .block statement => statement.layout
  | .empty _ => .text ";"

def If.layout : If → Doc
  | ⟨_, test, thenBranch, elseBranch⟩ =>
    .text "IF " ++ test.layout ++ .line ++ Layout.branch thenBranch.isBlock thenBranch.layout ++
      Else.layout elseBranch

def Else.layout : Option Statement → Doc
  | some branch =>
    .line ++ .text "ELSE" ++ .line ++ Layout.branch branch.isBlock branch.layout
  | none => .nil

def While.layout : While → Doc
  | ⟨_, test, body⟩ => .text "WHILE " ++ test.layout ++ .nest 2 (.line ++ body.layout)

def Block.layout : Block → Doc
  | ⟨_, body⟩ =>
    .text "BEGIN" ++ .line ++ .nest 2 (Doc.join (.line ++ .line) (Statements.layouts body)) ++
      .line ++ .text "END"

def Statements.layouts : List Statement → List Doc
  | [] => []
  | s :: ss => s.layout :: Statements.layouts ss

end

namespace Visit

def layout : Visit → Doc
  | select s => s.layout
  | insertValues s => s.layout
  | insertSelect s => s.layout
  | update s => s.layout
  | delete s => s.layout
  | conditional s => s.layout
  | loop s => s.layout
  | block s => s.layout
  | empty s => (Statement.empty s).layout
  | expression e => e.layout
  | predicate p => p.layout
  | column c => c.layout
  | tableSource s => s.layout
  | subquerySource s => s.layout
  | row r => r.layout
  | reference name => name.layout

theorem layout_visit_source (s : Source) : s.visit.layout = s.layout := by cases s <;> rfl

theorem layout_visit_statement (s : Statement) : s.visit.layout = s.layout := by cases s <;> rfl

end Visit

theorem Expressions.layouts_eq (es : List Expression) :
    Expressions.layouts es = es.map Expression.layout := by
  induction es with
  | nil => rfl
  | cons e es ih => rw [Expressions.layouts, ih, List.map_cons]

theorem OptionalExpression.layout_eq (e : Option Expression) :
    OptionalExpression.layout e = e.map Expression.layout := by cases e <;> rfl

theorem OptionalPredicate.layout_eq (p : Option Predicate) :
    OptionalPredicate.layout p = p.map Predicate.layout := by cases p <;> rfl

theorem Columns.layouts_eq (cs : List Column) : Columns.layouts cs = cs.map Column.layout := by
  induction cs with
  | nil => rfl
  | cons c cs ih => rw [Columns.layouts, ih, List.map_cons]

theorem Sources.layouts_eq (ss : List Source) : Sources.layouts ss = ss.map Source.layout := by
  induction ss with
  | nil => rfl
  | cons s ss ih => rw [Sources.layouts, ih, List.map_cons]

theorem Statements.layouts_eq (ss : List Statement) :
    Statements.layouts ss = ss.map Statement.layout := by
  induction ss with
  | nil => rfl
  | cons s ss ih => rw [Statements.layouts, ih, List.map_cons]

namespace Page

def append (p : Page) (s : Statement) : Page := (s.layout.set p).breakLine.breakLine

def appendAll (p : Page) (statements : List Statement) : Page := statements.foldl append p

end Page

def format (statements : List Statement) : String := (Page.blank.appendAll statements).content

end Transact
