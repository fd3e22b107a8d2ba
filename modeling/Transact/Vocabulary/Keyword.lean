import Transact.Text.Caseless

namespace Transact

inductive Keyword where
  | ADD | ALL | ALTER | AND | ANY | AS | ASC | AUTHORIZATION | BACKUP | BEGIN | BETWEEN | BREAK
  | BROWSE | BULK | BY | CASCADE | CASE | CHECK | CHECKPOINT | CLOSE | CLUSTERED | COALESCE
  | COLLATE | COLUMN | COMMIT | COMPUTE | CONSTRAINT | CONTAINS | CONTAINSTABLE | CONTINUE
  | CONVERT | CREATE | CROSS | CURRENT | CURRENT_DATE | CURRENT_TIME | CURRENT_TIMESTAMP
  | CURRENT_USER | CURSOR | DATABASE | DBCC | DEALLOCATE | DECLARE | DEFAULT | DELETE | DENY
  | DESC | DISK | DISTINCT | DISTRIBUTED | DOUBLE | DROP | DUMP | ELSE | END | ERRLVL | ESCAPE
  | EXCEPT | EXEC | EXECUTE | EXISTS | EXIT | EXTERNAL | FETCH | FILE | FILLFACTOR | FOR | FOREIGN
  | FREETEXT | FREETEXTTABLE | FROM | FULL | FUNCTION | GOTO | GRANT | GROUP | HAVING | HOLDLOCK
  | IDENTITY | IDENTITY_INSERT | IDENTITYCOL | IF | IN | INDEX | INNER | INSERT | INTERSECT | INTO
  | IS | JOIN | KEY | KILL | LEFT | LIKE | LINENO | LOAD | MERGE | NATIONAL | NOCHECK
  | NONCLUSTERED | NOT | NULL | NULLIF | OF | OFF | OFFSETS | ON | OPEN | OPENDATASOURCE
  | OPENQUERY | OPENROWSET | OPENXML | OPTION | OR | ORDER | OUTER | OVER | PERCENT | PIVOT | PLAN
  | PRECISION | PRIMARY | PRINT | PROC | PROCEDURE | PUBLIC | RAISERROR | READ | READTEXT
  | RECONFIGURE | REFERENCES | REPLICATION | RESTORE | RESTRICT | RETURN | REVERT | REVOKE | RIGHT
  | ROLLBACK | ROWCOUNT | ROWGUIDCOL | RULE | SAVE | SCHEMA | SECURITYAUDIT | SELECT
  | SEMANTICKEYPHRASETABLE | SEMANTICSIMILARITYDETAILSTABLE | SEMANTICSIMILARITYTABLE
  | SESSION_USER | SET | SETUSER | SHUTDOWN | SOME | STATISTICS | SYSTEM_USER | TABLE
  | TABLESAMPLE | TEXTSIZE | THEN | TO | TOP | TRAN | TRANSACTION | TRIGGER | TRUNCATE
  | TRY_CONVERT | TSEQUAL | UNION | UNIQUE | UNPIVOT | UPDATE | UPDATETEXT | USE | USER | VALUES
  | VARYING | VIEW | WAITFOR | WHEN | WHERE | WHILE | WITH | WRITETEXT
  deriving DecidableEq

namespace Keyword

def all : List Keyword := [
  .ADD, .ALL, .ALTER, .AND, .ANY, .AS, .ASC, .AUTHORIZATION, .BACKUP, .BEGIN, .BETWEEN, .BREAK,
  .BROWSE, .BULK, .BY, .CASCADE, .CASE, .CHECK, .CHECKPOINT, .CLOSE, .CLUSTERED, .COALESCE,
  .COLLATE, .COLUMN, .COMMIT, .COMPUTE, .CONSTRAINT, .CONTAINS, .CONTAINSTABLE, .CONTINUE,
  .CONVERT, .CREATE, .CROSS, .CURRENT, .CURRENT_DATE, .CURRENT_TIME, .CURRENT_TIMESTAMP,
  .CURRENT_USER, .CURSOR, .DATABASE, .DBCC, .DEALLOCATE, .DECLARE, .DEFAULT, .DELETE, .DENY,
  .DESC, .DISK, .DISTINCT, .DISTRIBUTED, .DOUBLE, .DROP, .DUMP, .ELSE, .END, .ERRLVL, .ESCAPE,
  .EXCEPT, .EXEC, .EXECUTE, .EXISTS, .EXIT, .EXTERNAL, .FETCH, .FILE, .FILLFACTOR, .FOR, .FOREIGN,
  .FREETEXT, .FREETEXTTABLE, .FROM, .FULL, .FUNCTION, .GOTO, .GRANT, .GROUP, .HAVING, .HOLDLOCK,
  .IDENTITY, .IDENTITY_INSERT, .IDENTITYCOL, .IF, .IN, .INDEX, .INNER, .INSERT, .INTERSECT, .INTO,
  .IS, .JOIN, .KEY, .KILL, .LEFT, .LIKE, .LINENO, .LOAD, .MERGE, .NATIONAL, .NOCHECK,
  .NONCLUSTERED, .NOT, .NULL, .NULLIF, .OF, .OFF, .OFFSETS, .ON, .OPEN, .OPENDATASOURCE,
  .OPENQUERY, .OPENROWSET, .OPENXML, .OPTION, .OR, .ORDER, .OUTER, .OVER, .PERCENT, .PIVOT, .PLAN,
  .PRECISION, .PRIMARY, .PRINT, .PROC, .PROCEDURE, .PUBLIC, .RAISERROR, .READ, .READTEXT,
  .RECONFIGURE, .REFERENCES, .REPLICATION, .RESTORE, .RESTRICT, .RETURN, .REVERT, .REVOKE, .RIGHT,
  .ROLLBACK, .ROWCOUNT, .ROWGUIDCOL, .RULE, .SAVE, .SCHEMA, .SECURITYAUDIT, .SELECT,
  .SEMANTICKEYPHRASETABLE, .SEMANTICSIMILARITYDETAILSTABLE, .SEMANTICSIMILARITYTABLE,
  .SESSION_USER, .SET, .SETUSER, .SHUTDOWN, .SOME, .STATISTICS, .SYSTEM_USER, .TABLE,
  .TABLESAMPLE, .TEXTSIZE, .THEN, .TO, .TOP, .TRAN, .TRANSACTION, .TRIGGER, .TRUNCATE,
  .TRY_CONVERT, .TSEQUAL, .UNION, .UNIQUE, .UNPIVOT, .UPDATE, .UPDATETEXT, .USE, .USER, .VALUES,
  .VARYING, .VIEW, .WAITFOR, .WHEN, .WHERE, .WHILE, .WITH, .WRITETEXT]

def spelling : Keyword → String
  | .ADD => "ADD"
  | .ALL => "ALL"
  | .ALTER => "ALTER"
  | .AND => "AND"
  | .ANY => "ANY"
  | .AS => "AS"
  | .ASC => "ASC"
  | .AUTHORIZATION => "AUTHORIZATION"
  | .BACKUP => "BACKUP"
  | .BEGIN => "BEGIN"
  | .BETWEEN => "BETWEEN"
  | .BREAK => "BREAK"
  | .BROWSE => "BROWSE"
  | .BULK => "BULK"
  | .BY => "BY"
  | .CASCADE => "CASCADE"
  | .CASE => "CASE"
  | .CHECK => "CHECK"
  | .CHECKPOINT => "CHECKPOINT"
  | .CLOSE => "CLOSE"
  | .CLUSTERED => "CLUSTERED"
  | .COALESCE => "COALESCE"
  | .COLLATE => "COLLATE"
  | .COLUMN => "COLUMN"
  | .COMMIT => "COMMIT"
  | .COMPUTE => "COMPUTE"
  | .CONSTRAINT => "CONSTRAINT"
  | .CONTAINS => "CONTAINS"
  | .CONTAINSTABLE => "CONTAINSTABLE"
  | .CONTINUE => "CONTINUE"
  | .CONVERT => "CONVERT"
  | .CREATE => "CREATE"
  | .CROSS => "CROSS"
  | .CURRENT => "CURRENT"
  | .CURRENT_DATE => "CURRENT_DATE"
  | .CURRENT_TIME => "CURRENT_TIME"
  | .CURRENT_TIMESTAMP => "CURRENT_TIMESTAMP"
  | .CURRENT_USER => "CURRENT_USER"
  | .CURSOR => "CURSOR"
  | .DATABASE => "DATABASE"
  | .DBCC => "DBCC"
  | .DEALLOCATE => "DEALLOCATE"
  | .DECLARE => "DECLARE"
  | .DEFAULT => "DEFAULT"
  | .DELETE => "DELETE"
  | .DENY => "DENY"
  | .DESC => "DESC"
  | .DISK => "DISK"
  | .DISTINCT => "DISTINCT"
  | .DISTRIBUTED => "DISTRIBUTED"
  | .DOUBLE => "DOUBLE"
  | .DROP => "DROP"
  | .DUMP => "DUMP"
  | .ELSE => "ELSE"
  | .END => "END"
  | .ERRLVL => "ERRLVL"
  | .ESCAPE => "ESCAPE"
  | .EXCEPT => "EXCEPT"
  | .EXEC => "EXEC"
  | .EXECUTE => "EXECUTE"
  | .EXISTS => "EXISTS"
  | .EXIT => "EXIT"
  | .EXTERNAL => "EXTERNAL"
  | .FETCH => "FETCH"
  | .FILE => "FILE"
  | .FILLFACTOR => "FILLFACTOR"
  | .FOR => "FOR"
  | .FOREIGN => "FOREIGN"
  | .FREETEXT => "FREETEXT"
  | .FREETEXTTABLE => "FREETEXTTABLE"
  | .FROM => "FROM"
  | .FULL => "FULL"
  | .FUNCTION => "FUNCTION"
  | .GOTO => "GOTO"
  | .GRANT => "GRANT"
  | .GROUP => "GROUP"
  | .HAVING => "HAVING"
  | .HOLDLOCK => "HOLDLOCK"
  | .IDENTITY => "IDENTITY"
  | .IDENTITY_INSERT => "IDENTITY_INSERT"
  | .IDENTITYCOL => "IDENTITYCOL"
  | .IF => "IF"
  | .IN => "IN"
  | .INDEX => "INDEX"
  | .INNER => "INNER"
  | .INSERT => "INSERT"
  | .INTERSECT => "INTERSECT"
  | .INTO => "INTO"
  | .IS => "IS"
  | .JOIN => "JOIN"
  | .KEY => "KEY"
  | .KILL => "KILL"
  | .LEFT => "LEFT"
  | .LIKE => "LIKE"
  | .LINENO => "LINENO"
  | .LOAD => "LOAD"
  | .MERGE => "MERGE"
  | .NATIONAL => "NATIONAL"
  | .NOCHECK => "NOCHECK"
  | .NONCLUSTERED => "NONCLUSTERED"
  | .NOT => "NOT"
  | .NULL => "NULL"
  | .NULLIF => "NULLIF"
  | .OF => "OF"
  | .OFF => "OFF"
  | .OFFSETS => "OFFSETS"
  | .ON => "ON"
  | .OPEN => "OPEN"
  | .OPENDATASOURCE => "OPENDATASOURCE"
  | .OPENQUERY => "OPENQUERY"
  | .OPENROWSET => "OPENROWSET"
  | .OPENXML => "OPENXML"
  | .OPTION => "OPTION"
  | .OR => "OR"
  | .ORDER => "ORDER"
  | .OUTER => "OUTER"
  | .OVER => "OVER"
  | .PERCENT => "PERCENT"
  | .PIVOT => "PIVOT"
  | .PLAN => "PLAN"
  | .PRECISION => "PRECISION"
  | .PRIMARY => "PRIMARY"
  | .PRINT => "PRINT"
  | .PROC => "PROC"
  | .PROCEDURE => "PROCEDURE"
  | .PUBLIC => "PUBLIC"
  | .RAISERROR => "RAISERROR"
  | .READ => "READ"
  | .READTEXT => "READTEXT"
  | .RECONFIGURE => "RECONFIGURE"
  | .REFERENCES => "REFERENCES"
  | .REPLICATION => "REPLICATION"
  | .RESTORE => "RESTORE"
  | .RESTRICT => "RESTRICT"
  | .RETURN => "RETURN"
  | .REVERT => "REVERT"
  | .REVOKE => "REVOKE"
  | .RIGHT => "RIGHT"
  | .ROLLBACK => "ROLLBACK"
  | .ROWCOUNT => "ROWCOUNT"
  | .ROWGUIDCOL => "ROWGUIDCOL"
  | .RULE => "RULE"
  | .SAVE => "SAVE"
  | .SCHEMA => "SCHEMA"
  | .SECURITYAUDIT => "SECURITYAUDIT"
  | .SELECT => "SELECT"
  | .SEMANTICKEYPHRASETABLE => "SEMANTICKEYPHRASETABLE"
  | .SEMANTICSIMILARITYDETAILSTABLE => "SEMANTICSIMILARITYDETAILSTABLE"
  | .SEMANTICSIMILARITYTABLE => "SEMANTICSIMILARITYTABLE"
  | .SESSION_USER => "SESSION_USER"
  | .SET => "SET"
  | .SETUSER => "SETUSER"
  | .SHUTDOWN => "SHUTDOWN"
  | .SOME => "SOME"
  | .STATISTICS => "STATISTICS"
  | .SYSTEM_USER => "SYSTEM_USER"
  | .TABLE => "TABLE"
  | .TABLESAMPLE => "TABLESAMPLE"
  | .TEXTSIZE => "TEXTSIZE"
  | .THEN => "THEN"
  | .TO => "TO"
  | .TOP => "TOP"
  | .TRAN => "TRAN"
  | .TRANSACTION => "TRANSACTION"
  | .TRIGGER => "TRIGGER"
  | .TRUNCATE => "TRUNCATE"
  | .TRY_CONVERT => "TRY_CONVERT"
  | .TSEQUAL => "TSEQUAL"
  | .UNION => "UNION"
  | .UNIQUE => "UNIQUE"
  | .UNPIVOT => "UNPIVOT"
  | .UPDATE => "UPDATE"
  | .UPDATETEXT => "UPDATETEXT"
  | .USE => "USE"
  | .USER => "USER"
  | .VALUES => "VALUES"
  | .VARYING => "VARYING"
  | .VIEW => "VIEW"
  | .WAITFOR => "WAITFOR"
  | .WHEN => "WHEN"
  | .WHERE => "WHERE"
  | .WHILE => "WHILE"
  | .WITH => "WITH"
  | .WRITETEXT => "WRITETEXT"

def ofWord? (word : String) : Option Keyword :=
  let spelled := Text.upper word
  all.find? fun w => w.spelling == spelled

theorem spelling_eq_of_ofWord? {word : String} {k : Keyword} (h : ofWord? word = some k) :
    k.spelling = Text.upper word := by
  simpa using List.find?_some h

theorem mem_all (k : Keyword) : k ∈ all := by cases k <;> decide

end Keyword

end Transact
