import TableLoader.Sql.Reader

/-!
# Precedence

How tightly the operators of expressions bind, by the token they begin with. An operator of strength zero
ends the expression before it.
-/
namespace TableLoader.Sql

/-- Where an expression stands. In the options of a column `NOT NULL` and `COLLATE` belong to the column. -/
inductive Scope where
  | general
  | column
  deriving DecidableEq, Repr

/-- The classes of operators of like strength. -/
inductive Strength where
  | absent
  | disjunction
  | conjunction
  | negation
  | otherOperator
  | test
  | pattern
  | equality
  | between
  | pipe
  | caret
  | ampersand
  | exclusion
  | sum
  | product
  | timeZone
  | collation
  | bracket
  | cast
  | period
  deriving DecidableEq, Repr

def Strength.level (d : Dialect) : Strength → Nat
  | .absent => 0
  | .disjunction => if d = .postgres then 10 else 5
  | .conjunction => if d = .postgres then 20 else 10
  | .negation => if d = .postgres then 30 else 15
  | .otherOperator => if d = .postgres then 70 else 16
  | .test => if d = .postgres then 40 else 17
  | .pattern => if d = .postgres then 60 else 19
  | .equality => if d = .postgres then 50 else 20
  | .between => if d = .postgres then 60 else 20
  | .pipe => if d = .postgres then 70 else 21
  | .caret => if d = .postgres then 100 else 22
  | .ampersand => if d = .postgres then 70 else 23
  | .exclusion => if d = .postgres then 75 else 24
  | .sum => if d = .postgres then 80 else 30
  | .product => if d = .postgres then 90 else 40
  | .timeZone => if d = .postgres then 110 else 41
  | .collation => 120
  | .bracket => if d = .postgres then 130 else 50
  | .cast => if d = .postgres then 140 else 50
  | .period => if d = .postgres then 200 else 100

namespace Strength

def afterNot (scope : Scope) : Option String → Strength
  | some "IN" | some "BETWEEN" => .between
  | some "LIKE" | some "ILIKE" | some "RLIKE" | some "REGEXP" | some "MATCH" | some "SIMILAR"
  | some "MEMBER" => .pattern
  | some "NULL" => if scope = .general then .test else .absent
  | _ => .absent

def ofKeyword (d : Dialect) (scope : Scope) (key : String) (rest : List Token) : Strength :=
  match key with
  | "OR" => .disjunction
  | "AND" => .conjunction
  | "XOR" => .exclusion
  | "AT" =>
    if (rest.take 2).map Token.keyword? = [some "TIME", some "ZONE"] then .timeZone else .absent
  | "NOT" => afterNot scope (rest.head?.bind Token.keyword?)
  | "NOTNULL" => if d = .postgres ∨ d = .sqlite then .test else .absent
  | "IS" => .test
  | "IN" | "BETWEEN" | "OVERLAPS" | "OPERATOR" => .between
  | "LIKE" | "ILIKE" | "RLIKE" | "REGEXP" | "MATCH" | "SIMILAR" | "MEMBER" => .pattern
  | "DIV" => .product
  | "COLLATE" => if d = .postgres ∧ scope = .general then .collation else .absent
  | _ => .absent

def ranksWithOwn (text : String) : Bool :=
  ["!", "&&", "^@", "||", "#", ">>", "<<"].contains text

def ofSymbol (d : Dialect) (text : String) : Strength :=
  if d = .postgres ∧ ranksWithOwn text then .otherOperator
  else
    match text with
    | "." => .period
    | ":=" | "=" | "<" | "<=" | "<>" | ">" | ">=" | "==" | "~" | "~*" | "!~" | "!~*" | "~~" | "~~*"
    | "!~~" | "!~~*" | "<=>" => .equality
    | "|" => .pipe
    | "^" | "#" | "<<" | ">>" => .caret
    | "&" => .ampersand
    | "+" | "-" => .sum
    | "*" | "/" | "//" | "%" | "||" => .product
    | "::" | "!" | "&&" | "^@" => .cast
    | "[" => .bracket
    | "->" | "->>" | "#>" | "#>>" | "@>" | "<@" | "#-" | "@?" | "@@" | "?" | "?&" | "?|" | "##"
    | "<->" | "<^" | ">^" | "~=" | "?#" | "?-" | "?-|" | "?||" | "&<" | "&>" | "<<|" | "|>>"
    | "&<|" | "|&>" => .otherOperator
    | _ => .absent

def ofTokens (d : Dialect) (scope : Scope) : List Token → Strength
  | .word _ key none :: rest => ofKeyword d scope key rest
  | .symbol text :: _ => ofSymbol d text
  | .operator _ :: _ => .otherOperator
  | _ => .absent

end Strength

end TableLoader.Sql
