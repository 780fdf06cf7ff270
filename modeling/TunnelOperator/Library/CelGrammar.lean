import Mathlib.Algebra.Group.Nat.Defs
import TunnelOperator.Library.CelLexer

/-! The expressions of the Common Expression Language and a parser for its grammar, in which
each level is given the level below it. -/
namespace TunnelOperator.CelText

inductive UnaryOp where
  | not | neg
  deriving DecidableEq

inductive BinaryOp where
  | or | and | lt | le | ge | gt | eq | ne | «in» | add | sub | mul | div | mod
  deriving DecidableEq

inductive Expr where
  | null
  | bool (value : Bool)
  | int (value : Nat)
  | uint (value : Nat)
  | double (text : List Char)
  | str (value : String)
  | bytes (value : String)
  | ident (name : String)
  | select (e : Expr) (field : String)
  | index (e i : Expr)
  | call (fn : String) (args : List Expr)
  | memberCall (e : Expr) (fn : String) (args : List Expr)
  | list (items : List Expr)
  | map (entries : List (Expr × Expr))
  | message (type : List String) (fields : List (String × Expr))
  | unary (op : UnaryOp) (e : Expr)
  | binary (op : BinaryOp) (a b : Expr)
  | cond (c a b : Expr)

abbrev Reader (α : Type) := List Token → Option (α × List Token)

/-- Names that no identifier may have. -/
def reserved : List String :=
  ["as", "break", "const", "continue", "else", "for", "function", "if", "import", "let",
    "loop", "package", "namespace", "return", "var", "void", "while"]

section Levels
variable (expr : Reader Expr)

/-- What `item` reads, again after each comma, up to `close`. A comma may stand before it. -/
def listTail (item : Reader α) (close : Symbol) : Nat → Reader (List α)
  | 0, _ => none
  | fuel + 1, toks =>
    match toks with
    | .sym s :: rest =>
      if s = close then some ([], rest)
      else if s ≠ .comma then none
      else if rest.head? = some (.sym close) then some ([], rest.tail)
      else do
        let (first, rest) ← item rest
        let (others, rest) ← listTail item close fuel rest
        return (first :: others, rest)
    | _ => none

/-- Items between commas up to `close`. -/
def listOf (item : Reader α) (close : Symbol) : Reader (List α) := fun toks =>
  if toks.head? = some (.sym close) then some ([], toks.tail)
  else do
    let (first, rest) ← item toks
    let (others, rest) ← listTail item close rest.length rest
    return (first :: others, rest)

def entry : Reader (Expr × Expr) := fun toks => do
  let (key, rest) ← expr toks
  match rest with
  | .sym .colon :: rest => do
    let (value, rest) ← expr rest
    return ((key, value), rest)
  | _ => none

def fieldInit : Reader (String × Expr) := fun toks =>
  match toks with
  | .ident name :: .sym .colon :: rest => do
    let (value, rest) ← expr rest
    return ((name, value), rest)
  | _ => none

/-- The rest of a dotted name. -/
def dotted : Nat → List Token → List String × List Token
  | fuel + 1, .sym .dot :: .ident name :: rest =>
    let (names, after) := dotted fuel rest
    (name :: names, after)
  | _, toks => ([], toks)

def primary : Reader Expr := fun toks =>
  match toks with
  | .null :: rest => some (.null, rest)
  | .bool b :: rest => some (.bool b, rest)
  | .int n :: rest => if n < 2 ^ 63 then some (.int n, rest) else none
  | .uint n :: rest => if n < 2 ^ 64 then some (.uint n, rest) else none
  | .float text :: rest => some (.double text, rest)
  | .str s :: rest => some (.str s, rest)
  | .bytes s :: rest => some (.bytes s, rest)
  | .sym .lparen :: rest => do
    let (e, rest) ← expr rest
    match rest with
    | .sym .rparen :: rest => return (e, rest)
    | _ => none
  | .sym .lbracket :: rest => do
    let (items, rest) ← listOf expr .rbracket rest
    return (.list items, rest)
  | .sym .lbrace :: rest => do
    let (entries, rest) ← listOf (entry expr) .rbrace rest
    return (.map entries, rest)
  | .sym .dot :: .ident name :: rest => named name rest
  | .ident name :: rest => named name rest
  | _ => none
where
  named (name : String) (rest : List Token) : Option (Expr × List Token) :=
    match dotted rest.length rest with
    | (names, .sym .lbrace :: after) => do
      let (fields, after) ← listOf (fieldInit expr) .rbrace after
      return (.message (name :: names) fields, after)
    | _ =>
      if name ∈ reserved then none
      else match rest with
        | .sym .lparen :: after => do
          let (args, after) ← listOf expr .rparen after
          return (.call name args, after)
        | _ => some (.ident name, rest)

/-- Selections, calls and indices after a primary. -/
def memberTail : Nat → Expr → List Token → Option (Expr × List Token)
  | fuel + 1, e, .sym .dot :: .ident name :: .sym .lparen :: rest => do
    let (args, rest) ← listOf expr .rparen rest
    memberTail fuel (.memberCall e name args) rest
  | fuel + 1, e, .sym .dot :: .ident name :: rest => memberTail fuel (.select e name) rest
  | fuel + 1, e, .sym .lbracket :: rest => do
    let (i, rest) ← expr rest
    match rest with
    | .sym .rbracket :: rest => memberTail fuel (.index e i) rest
    | _ => none
  | _, e, toks => some (e, toks)

def member : Reader Expr := fun toks => do
  let (e, rest) ← primary expr toks
  memberTail expr rest.length e rest

/-- A run of one of the two signs before a member. -/
def signs (op : Symbol) : List Token → Nat × List Token
  | .sym s :: rest =>
    if s = op then
      let (n, after) := signs op rest
      (n + 1, after)
    else (0, .sym s :: rest)
  | toks => (0, toks)

def signed (op : UnaryOp) : Nat → Expr → Expr
  | 0, e => e
  | n + 1, e => .unary op (signed op n e)

def unary : Reader Expr := fun toks =>
  match signs .bang toks, signs .minus toks with
  | (n + 1, rest), _ => do
    let (e, rest) ← member expr rest
    return (signed .not (n + 1) e, rest)
  | _, (n + 1, rest) => do
    let (e, rest) ← member expr rest
    return (signed .neg (n + 1) e, rest)
  | _, _ => member expr toks

end Levels

/-- Operands of the level below with operators of one level, grouped to the left. -/
def chainTail (op : Symbol → Option BinaryOp) (operand : Reader Expr) :
    Nat → Expr → List Token → Option (Expr × List Token)
  | fuel + 1, e, .sym s :: rest =>
    match op s with
    | some o => do
      let (next, rest) ← operand rest
      chainTail op operand fuel (.binary o e next) rest
    | none => some (e, .sym s :: rest)
  | _, e, toks => some (e, toks)

def chain (op : Symbol → Option BinaryOp) (operand : Reader Expr) : Reader Expr := fun toks => do
  let (e, rest) ← operand toks
  chainTail op operand rest.length e rest

def multiplicative : Symbol → Option BinaryOp
  | .star => some .mul
  | .slash => some .div
  | .percent => some .mod
  | _ => none

def additive : Symbol → Option BinaryOp
  | .plus => some .add
  | .minus => some .sub
  | _ => none

def relational : Symbol → Option BinaryOp
  | .lt => some .lt
  | .le => some .le
  | .ge => some .ge
  | .gt => some .gt
  | .eq => some .eq
  | .ne => some .ne
  | .in => some .in
  | _ => none

def conjunctive : Symbol → Option BinaryOp
  | .and => some .and
  | _ => none

def disjunctive : Symbol → Option BinaryOp
  | .or => some .or
  | _ => none

def operators (expr : Reader Expr) : Reader Expr :=
  chain disjunctive (chain conjunctive
    (chain relational (chain additive (chain multiplicative (unary expr)))))

/-- Expressions nested to the given depth. -/
def expression : Nat → Reader Expr
  | 0, _ => none
  | depth + 1, toks => do
    let (c, rest) ← operators (expression depth) toks
    match rest with
    | .sym .question :: rest => do
      let (a, rest) ← operators (expression depth) rest
      match rest with
      | .sym .colon :: rest => do
        let (b, rest) ← expression depth rest
        return (.cond c a b, rest)
      | _ => none
    | _ => some (c, rest)

/-- The text as a single expression. -/
def parse (text : String) : Option Expr := do
  let toks ← lex text.toList
  let (e, rest) ← expression (toks.length + 1) toks
  if rest = [] then some e else none

end TunnelOperator.CelText
