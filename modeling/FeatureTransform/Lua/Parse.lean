import FeatureTransform.Lua.Syntax
import FeatureTransform.Lua.Token

/-!
# Parsing Lua

The grammar, one level of nesting after another: `parsersAt room` holds the parsers of expressions
and statements that may nest `room` levels deeper, built from the parsers of one level less. Inside
a level there are only loops, each of which takes at least one token per turn.

A variable or field is looked up only when the parser needs its value, and its line is that of the
last token read by then; `Expr.settled` moves the line there.
-/

namespace FeatureTransform.Lua

/-- Why a text is no program. -/
inductive SyntaxFault where
  /-- no rule of the grammar allows it -/
  | malformed
  /-- it is nested too deep -/
  | tooDeep
deriving DecidableEq, Repr

/-- The tokens still to be read, and the line of the last one that was. -/
structure ParserState where
  /-- the tokens still to be read -/
  tokens : List Lexeme
  /-- the line of the last token read -/
  last : Nat

/-- A parser takes tokens from the front and may fail. -/
abbrev Parser (α : Type) := StateT ParserState (Except SyntaxFault) α

namespace Parser

/-- Fails. -/
def fail {α : Type} : Parser α := throw .malformed

/-- The next token, if there is one. -/
def peek : Parser (Option Token) := return (← get).tokens.head?.map Lexeme.token

/-- The token after the next. -/
def peekSecond : Parser (Option Token) := return (← get).tokens.tail.head?.map Lexeme.token

/-- The line of the next token. -/
def line : Parser Nat := do
  let state ← get
  return (state.tokens.head?.map Lexeme.line).getD state.last

/-- The line of the last token read. -/
def lastLine : Parser Nat := return (← get).last

/-- Takes one token. -/
def skip : Parser Unit := modify fun state =>
  match state.tokens with
  | [] => state
  | lexeme :: rest => { tokens := rest, last := lexeme.line }

/-- Whether the next token is this mark. -/
def sees (mark : String) : Parser Bool := return (← peek) == some (.mark mark)

/-- Takes the mark, if it is the next token. -/
def accept (mark : String) : Parser Bool := do
  if ← sees mark then
    skip
    return true
  else return false

/-- Takes the mark, which has to be the next token. -/
def expect (mark : String) : Parser Unit := do
  unless ← accept mark do fail

/-- Takes a name. -/
def name : Parser String := do
  match ← peek with
  | some (.name x) =>
    skip
    return x
  | _ => fail

/-- Repeats a step until it is done, at most so often. -/
def loop {α β : Type} (step : α → Parser (α ⊕ β)) : (fuel : Nat) → α → Parser β
  | 0, _ => fail
  | fuel + 1, a => do
    match ← step a with
    | .inl a => loop step fuel a
    | .inr b => return b

/-- Repeats a step that takes a token each time until it is done. -/
def repeatedly {α β : Type} (step : α → Parser (α ⊕ β)) (a : α) : Parser β := do
  loop step ((← get).tokens.length + 1) a

end Parser

/-- The parsers of one level of nesting. -/
structure Parsers where
  /-- parses an expression whose operators bind tighter than the given strength -/
  expr : Nat → Parser Expr
  /-- parses a statement; an empty one is nothing -/
  statement : Parser (Option Stat)

namespace Parsers

open FeatureTransform.Lua.Parser

/-! ## Lists and blocks -/

/-- An expression of any strength. -/
def expression (p : Parsers) : Parser Expr := p.expr 0

/-- The expressions behind the first of a list; `done` are those before, last first. -/
def listStep (p : Parsers) (done : List Expr) : Parser (List Expr ⊕ List Expr) := do
  if ← accept "," then
    let line ← lastLine
    let done :=
      match done with
      | e :: rest => e.settled line :: rest
      | [] => []
    return .inl ((← p.expression) :: done)
  else return .inr done.reverse

/-- One or more expressions. -/
def expressions (p : Parsers) : Parser (List Expr) := do
  repeatedly p.listStep [← p.expression]

/-- The marks that end a block. -/
def blockEnds : List String := ["else", "elseif", "end", "until"]

/-- Whether the next token ends a block. -/
def atBlockEnd : Parser Bool := do
  match ← peek with
  | none => return true
  | some (.mark mark) => return blockEnds.contains mark
  | some _ => return false

/-- The statements of a block behind `done`, which holds those before, last first. A `return` ends
its block. -/
def blockStep (p : Parsers) (done : List Stat) : Parser (List Stat ⊕ List Stat) := do
  if ← atBlockEnd then return .inr done.reverse
  else
    match ← p.statement with
    | some (.return values) =>
      -- nothing may follow a `return` in its block
      if ← atBlockEnd then return .inr (.return values :: done).reverse else fail
    | some stat => return .inl (stat :: done)
    | none => return .inl done

/-- The statements up to the end of a block. -/
def block (p : Parsers) : Parser (List Stat) := repeatedly p.blockStep []

/-! ## Functions -/

/-- The parameters of a function behind `done`, up to the closing parenthesis. -/
def parameterStep (done : List String) :
    Parser (List String ⊕ (List String × Bool)) := do
  if ← accept "..." then
    expect ")"
    return .inr (done.reverse, true)
  else
    let x ← name
    if ← accept "," then return .inl (x :: done)
    else
      expect ")"
      return .inr ((x :: done).reverse, false)

/-- A function from its opening parenthesis on; `first` are parameters that are not written. -/
def functionBody (p : Parsers) (first : List String) : Parser Function := do
  expect "("
  let (parameters, isVariadic) ←
    if ← accept ")" then pure ([], false) else repeatedly parameterStep []
  let body ← p.block
  expect "end"
  return .mk (first ++ parameters) isVariadic body

/-! ## Table constructors -/

/-- A field of a table constructor. -/
def tableField (p : Parsers) : Parser TableField := do
  match ← peek, ← peekSecond with
  | some (.name x), some (.mark "=") =>
    skip
    skip
    let value ← p.expression
    return .keyed (.string x.toUTF8) value (← lastLine)
  | some (.mark "["), _ =>
    skip
    let key ← p.expression
    expect "]"
    expect "="
    let value ← p.expression
    return .keyed key value (← lastLine)
  | _, _ => return .item (← p.expression)

/-- An item with the line on which it is looked up. -/
def settledField (line : Nat) : TableField → TableField
  | .item value => .item (value.settled line)
  | field => field

/-- The fields of a table constructor behind `done`, up to the closing brace. -/
def tableStep (p : Parsers) (done : List TableField) :
    Parser (List TableField ⊕ List TableField) := do
  if ← accept "\x7d" then return .inr done.reverse
  else
    let field ← p.tableField
    let separated ← sees ","
    if separated || (← sees ";") then
      skip
      return .inl (settledField (← lastLine) field :: done)
    else
      expect "\x7d"
      return .inr (settledField (← lastLine) field :: done).reverse

/-- A table constructor. -/
def tableConstructor (p : Parsers) : Parser Expr := do
  expect "\x7b"
  return .table (← repeatedly p.tableStep [])

/-! ## Expressions -/

/-- The arguments of a call: a list in parentheses, a table or a string. -/
def arguments (p : Parsers) : Parser (List Expr) := do
  match ← peek with
  | some (.string s) =>
    skip
    return [.string s]
  | some (.mark "\x7b") => return [← p.tableConstructor]
  | some (.mark "(") =>
    skip
    if ← accept ")" then return []
    else
      let arguments ← p.expressions
      expect ")"
      -- a variable in the last place is looked up behind the parenthesis
      let line ← lastLine
      return arguments.dropLast ++ (arguments.getLast?.map (·.settled line)).toList
  | _ => fail

/-- A name or an expression in parentheses. -/
def primary (p : Parsers) : Parser Expr := do
  match ← peek with
  | some (.name x) =>
    skip
    return .name x (← lastLine)
  | some (.mark "(") =>
    skip
    let e ← p.expression
    expect ")"
    return .paren (e.settled (← lastLine))
  | _ => fail

/-- What may follow an expression that is a prefix of a longer one. -/
def suffixStep (p : Parsers) (e : Expr) : Parser (Expr ⊕ Expr) := do
  match ← peek with
  | some (.mark ".") =>
    skip
    let x ← name
    return .inl (.index e (.string x.toUTF8) (← lastLine))
  | some (.mark "[") =>
    skip
    let key ← p.expression
    expect "]"
    return .inl (.index e key (← lastLine))
  | some (.mark ":") =>
    skip
    let x ← name
    let lookupLine ← lastLine
    let line ← line
    return .inl (.method e x (← p.arguments) lookupLine line)
  | some (.mark "(") | some (.mark "\x7b") | some (.string _) =>
    -- the line of a call is the one on which its arguments begin
    let line ← line
    return .inl (.call e (← p.arguments) line)
  | _ => return .inr e

/-- A name or parenthesis with everything that follows it: fields, calls and methods. -/
def suffixed (p : Parsers) : Parser Expr := do repeatedly p.suffixStep (← p.primary)

/-- An expression without operators. -/
def simple (p : Parsers) : Parser Expr := do
  match ← peek with
  | some (.number n) =>
    skip
    return .number n
  | some (.string s) =>
    skip
    return .string s
  | some (.mark "nil") =>
    skip
    return .nil
  | some (.mark "true") =>
    skip
    return .bool true
  | some (.mark "false") =>
    skip
    return .bool false
  | some (.mark "...") =>
    skip
    return .vararg
  | some (.mark "function") =>
    skip
    return .function (← p.functionBody [])
  | some (.mark "\x7b") => p.tableConstructor
  | _ => p.suffixed

/-- The operator of one operand that a mark stands for. -/
def unaryOp? : String → Option UnaryOp
  | "-" => some .minus
  | "not" => some .not
  | "#" => some .length
  | "~" => some .bnot
  | _ => none

/-- What an operator between two operands builds. -/
inductive Infix where
  /-- an operator that evaluates both operands -/
  | op (op : BinaryOp)
  /-- `and` -/
  | and
  /-- `or` -/
  | or

/-- The operator between two operands that a mark stands for, how tight it binds to its left and
how tight to its right. -/
def infixOp? : String → Option (Infix × Nat × Nat)
  | "or" => some (.or, 1, 1)
  | "and" => some (.and, 2, 2)
  | "<" => some (.op .lt, 3, 3)
  | ">" => some (.op .gt, 3, 3)
  | "<=" => some (.op .le, 3, 3)
  | ">=" => some (.op .ge, 3, 3)
  | "~=" => some (.op .ne, 3, 3)
  | "==" => some (.op .eq, 3, 3)
  | "|" => some (.op (.bitwise .bor), 4, 4)
  | "~" => some (.op (.bitwise .bxor), 5, 5)
  | "&" => some (.op (.bitwise .band), 6, 6)
  | "<<" => some (.op (.bitwise .shl), 7, 7)
  | ">>" => some (.op (.bitwise .shr), 7, 7)
  -- concatenation and power group to the right: they bind tighter to their left
  | ".." => some (.op .concat, 9, 8)
  | "+" => some (.op (.arith .add), 10, 10)
  | "-" => some (.op (.arith .sub), 10, 10)
  | "*" => some (.op (.arith .mul), 11, 11)
  | "/" => some (.op (.arith .div), 11, 11)
  | "//" => some (.op (.arith .idiv), 11, 11)
  | "%" => some (.op (.arith .mod), 11, 11)
  | "^" => some (.op (.arith .pow), 14, 13)
  | _ => none

/-- How tight the operators of one operand bind. -/
def unaryStrength : Nat := 12

/-- The operator between two operands that comes next, if it binds tighter than `limit`. -/
def nextInfix (limit : Nat) : Parser (Option (Infix × Nat)) := do
  match ← peek with
  | some (.mark mark) =>
    match infixOp? mark with
    | some (op, left, right) => return if limit < left then some (op, right) else none
    | none => return none
  | _ => return none

/-- Moves a chain of concatenations to one line: it is evaluated as a whole. -/
def onLine (line : Nat) : Expr → Expr
  | .binary .concat left right _ => .binary .concat left (onLine line right) line
  | e => e

/-- The expression of an operator between two operands. An ordering is evaluated on the line on
which its second operand ends, all else on the line of the operator. -/
def join (op : Infix) (left right : Expr) (line last : Nat) : Expr :=
  match op with
  | .and => .and left right
  | .or => .or left right
  | .op .concat => .binary .concat left (onLine line right) line
  | .op .lt => .binary .lt left right last
  | .op .le => .binary .le left right last
  | .op .gt => .binary .gt left right last
  | .op .ge => .binary .ge left right last
  | .op op => .binary op left right line

/-- A further operator and operand behind an expression. -/
def infixStep (p : Parsers) (limit : Nat) (left : Expr) : Parser (Expr ⊕ Expr) := do
  match ← nextInfix limit with
  | none => return .inr left
  | some (op, right) =>
    skip
    let line ← lastLine
    let left := left.settled line
    let right ← p.expr right
    return .inl (join op left right line (← lastLine))

/-- An operator of one operand with its operand, or an expression without operators. -/
def operand (p : Parsers) : Parser Expr := do
  match ← peek with
  | some (.mark mark) =>
    match unaryOp? mark with
    | some op =>
      skip
      let line ← lastLine
      return .unary op (← p.expr unaryStrength) line
    | none => p.simple
  | _ => p.simple

/-- An expression whose operators bind tighter than `limit`. -/
def exprAbove (p : Parsers) (limit : Nat) : Parser Expr := do
  repeatedly (p.infixStep limit) (← p.operand)

/-! ## Statements -/

/-- The rest of an `if` behind its condition's first word. -/
def ifClause (p : Parsers) : Parser (Expr × List Stat) := do
  let condition ← p.expression
  expect "then"
  let condition := condition.settled (← lastLine)
  return (condition, ← p.block)

/-- The clauses of an `if` behind `done`, and what stands behind `else`. -/
def ifStep (p : Parsers) (done : List (Expr × List Stat)) :
    Parser (List (Expr × List Stat) ⊕ (List (Expr × List Stat) × List Stat)) := do
  if ← accept "elseif" then return .inl ((← p.ifClause) :: done)
  else if ← accept "else" then
    let no ← p.block
    expect "end"
    return .inr (done, no)
  else
    expect "end"
    return .inr (done, [])

/-- The statement of the clauses of an `if`, the last of them first. -/
def ifOf : List (Expr × List Stat) → List Stat → List Stat
  | [], no => no
  -- an `elseif` stands inside the `else` of the condition before it
  | (condition, yes) :: before, no => ifOf before [.if condition yes no]

/-- An `if`. -/
def ifStat (p : Parsers) : Parser Stat := do
  let first ← p.ifClause
  let (clauses, no) ← repeatedly p.ifStep [first]
  match ifOf clauses no with
  | [stat] => return stat
  | stats => return .block stats

/-- A loop over numbers behind its variable. -/
def numericFor (p : Parsers) (x : String) : Parser Stat := do
  expect "="
  let start ← p.expression
  expect ","
  let start := start.settled (← lastLine)
  let limit ← p.expression
  let step ←
    if ← accept "," then
      let step ← p.expression
      pure (some step)
    else pure none
  expect "do"
  let line ← lastLine
  let body ← p.block
  expect "end"
  return .numericFor x start limit step body line

/-- One or more names behind the first, which is the last of `done`. -/
def nameStep (done : List String) : Parser (List String ⊕ List String) := do
  if ← accept "," then return .inl ((← name) :: done) else return .inr done.reverse

/-- A loop over what a function returns, behind its first variable. -/
def genericFor (p : Parsers) (x : String) : Parser Stat := do
  let names ← repeatedly nameStep [x]
  expect "in"
  let line ← line
  let values ← p.expressions
  expect "do"
  let body ← p.block
  expect "end"
  return .genericFor names values body line

/-- A `for` behind its first word. -/
def forStat (p : Parsers) : Parser Stat := do
  let x ← name
  if ← sees "=" then p.numericFor x else p.genericFor x

/-- The fields behind the first name of a function statement. -/
def functionNameStep (e : Expr) : Parser (Expr ⊕ (Expr × List String)) := do
  if ← accept "." then
    let x ← name
    return .inl (.index e (.string x.toUTF8) (← lastLine))
  else if ← accept ":" then
    let x ← name
    return .inr (.index e (.string x.toUTF8) (← lastLine), ["self"])
  else return .inr (e, [])

/-- A function statement behind its first word. -/
def functionStat (p : Parsers) : Parser Stat := do
  let line ← lastLine
  let (target, first) ← repeatedly functionNameStep (.name (← name) (← lastLine))
  return .assign [target] [.function (← p.functionBody first)] line

/-- What a declaration says of the variable before it. -/
def localAttribute : Parser Attribute := do
  if ← accept "<" then
    let x ← name
    expect ">"
    match x with
    | "const" => return .const
    | "close" => return .close
    | _ => fail
  else return .regular

/-- The variables of a declaration behind `done`. -/
def localStep (done : List (String × Attribute)) :
    Parser (List (String × Attribute) ⊕ List (String × Attribute)) := do
  let x ← name
  let done := (x, ← localAttribute) :: done
  if ← accept "," then return .inl done else return .inr done.reverse

/-- A declaration of local variables behind its first word; one of them at most is closed. -/
def localStat (p : Parsers) : Parser Stat := do
  let names ← repeatedly localStep []
  if 1 < names.countP (·.2 == .close) then fail
  let values ← if ← accept "=" then p.expressions else pure []
  return .local names values (← lastLine)

/-- Whether an expression may be assigned to. -/
def isTarget : Expr → Bool
  | .name _ _ | .index _ _ _ => true
  | _ => false

/-- The targets of an assignment behind `done`. -/
def targetStep (p : Parsers) (done : List Expr) : Parser (List Expr ⊕ List Expr) := do
  if ← accept "," then
    let e ← p.suffixed
    if isTarget e then return .inl (e :: done) else fail
  else
    expect "="
    return .inr done.reverse

/-- An assignment or a call. -/
def exprStat (p : Parsers) : Parser Stat := do
  let e ← p.suffixed
  let assigned ← sees "="
  if assigned || (← sees ",") then
    unless isTarget e do fail
    let targets ← repeatedly p.targetStep [e]
    let values ← p.expressions
    return .assign targets values (← lastLine)
  else
    match e with
    | .call _ _ _ | .method _ _ _ _ _ => return .call e
    | _ => fail

/-- A `return` behind its word. -/
def returnStat (p : Parsers) : Parser Stat := do
  let ended ← atBlockEnd
  let values ← if ended || (← sees ";") then pure [] else p.expressions
  let _ ← accept ";"
  return .return values

/-- A statement that begins with a keyword or another mark. -/
def markedStat (p : Parsers) (mark : String) : Parser (Option Stat) := do
  match mark with
  | ";" =>
    skip
    return none
  | "if" =>
    skip
    return some (← p.ifStat)
  | "while" =>
    skip
    let condition ← p.expression
    expect "do"
    let body ← p.block
    expect "end"
    return some (.while condition body)
  | "do" =>
    skip
    let body ← p.block
    expect "end"
    return some (.block body)
  | "for" =>
    skip
    return some (← p.forStat)
  | "repeat" =>
    skip
    let body ← p.block
    expect "until"
    return some (.repeat body (← p.expression))
  | "function" =>
    skip
    return some (← p.functionStat)
  | "local" =>
    skip
    if ← accept "function" then
      let x ← name
      return some (.localFunction x (← p.functionBody []))
    else return some (← p.localStat)
  | "::" =>
    skip
    let x ← name
    expect "::"
    return some (.label x)
  | "break" =>
    skip
    return some .break
  | "return" =>
    skip
    return some (← p.returnStat)
  | "goto" =>
    skip
    return some (.goto (← name))
  | _ => return some (← p.exprStat)

/-- A statement. -/
def anyStatement (p : Parsers) : Parser (Option Stat) := do
  match ← peek with
  | some (.mark mark) => p.markedStat mark
  | _ => return some (← p.exprStat)

/-! ## Levels -/

/-- The parsers of expressions and statements that may nest so many levels deep. -/
def atMost : (room : Nat) → Parsers
  | 0 => { expr := fun _ => throw .tooDeep, statement := throw .tooDeep }
  | room + 1 =>
    let inner := atMost room
    { expr := inner.exprAbove, statement := inner.anyStatement }

/-- How deep expressions and statements may nest. -/
def maxLevels : Nat := 199

/-- A whole program: statements, and nothing behind them. -/
def program : Parser (List Stat) := do
  let body ← (atMost maxLevels).block
  match ← peek with
  | none => return body
  | some _ => fail

end Parsers

/-- The statements of a program text. -/
def parse (s : Text) : Except SyntaxFault (List Stat) :=
  match tokens? s with
  | none => .error .malformed
  | some tokens => (Parsers.program.run { tokens := tokens, last := 1 }).map Prod.fst

end FeatureTransform.Lua
