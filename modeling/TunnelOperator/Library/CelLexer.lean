import Mathlib.Data.List.Basic

/-! The tokens of the Common Expression Language and its lexer. -/
namespace TunnelOperator.CelText

inductive Symbol where
  | lparen | rparen | lbracket | rbracket | lbrace | rbrace
  | comma | colon | dot | question | bang | minus | plus | star | slash | percent
  | or | and | lt | le | ge | gt | eq | ne | «in»
  deriving DecidableEq

inductive Token where
  | sym (s : Symbol)
  | ident (name : String)
  | null
  | bool (value : Bool)
  | int (value : Nat)
  | uint (value : Nat)
  | float (text : List Char)
  | str (value : String)
  | bytes (value : String)
  deriving DecidableEq

def isSpace (c : Char) : Bool := c = ' ' || c = '\t' || c = '\n' || c = '\x0c' || c = '\r'

def isLetter (c : Char) : Bool := c.isAlpha || c = '_'

def isWord (c : Char) : Bool := isLetter c || c.isDigit

def isQuote (c : Char) : Bool := c = '"' || c = '\''

def digit? (base : Nat) (c : Char) : Option Nat :=
  let value := if c.isDigit then some (c.toNat - '0'.toNat)
    else if 'a' ≤ c ∧ c ≤ 'f' then some (c.toNat - 'a'.toNat + 10)
    else if 'A' ≤ c ∧ c ≤ 'F' then some (c.toNat - 'A'.toNat + 10)
    else none
  value.filter (· < base)

def numeral (base : Nat) (digits : List Char) : Nat :=
  digits.foldl (fun value c => value * base + (digit? base c).getD 0) 0

/-- The escapes of one letter. -/
def simpleEscape (c : Char) : Option Char :=
  if c = 'a' then some '\x07'
  else if c = 'b' then some '\x08'
  else if c = 'f' then some '\x0c'
  else if c = 'n' then some '\n'
  else if c = 'r' then some '\r'
  else if c = 't' then some '\t'
  else if c = 'v' then some '\x0b'
  else if c = '\\' ∨ c = '?' ∨ c = '"' ∨ c = '\'' ∨ c = '\x60' then some c
  else none

def scalar? (n : Nat) : Option Char := if n.isValidChar then some (Char.ofNat n) else none

/-- Where the lexer is in a string: between characters, after a backslash, or in an escape
of digits of which some are to come. -/
inductive Place where
  | plain
  | escaped
  | digits (base left value : Nat)

def push (c : Char) (tail : Option (List Char × List Char)) : Option (List Char × List Char) :=
  tail.map fun (body, rest) => (c :: body, rest)

/-- What follows the closing quotes, if they stand here. -/
def closing (quote : Char) (triple : Bool) : List Char → Option (List Char)
  | a :: rest =>
    if a ≠ quote then none
    else if triple then
      match rest with
      | b :: c :: rest => if b = quote ∧ c = quote then some rest else none
      | _ => none
    else some rest
  | [] => none

/-- The characters of a string up to its closing quotes, and what follows these. -/
def stringBody (raw : Bool) (quote : Char) (triple : Bool) :
  Place → List Char → Option (List Char × List Char)
  | _, [] => none
  | .plain, c :: rest =>
    match closing quote triple (c :: rest) with
    | some after => some ([], after)
    | none =>
      if c = '\\' ∧ !raw then stringBody raw quote triple .escaped rest
      else if (c = '\n' ∨ c = '\r') ∧ !triple then none
      else push c (stringBody raw quote triple .plain rest)
  | .escaped, c :: rest =>
    if c = 'x' ∨ c = 'X' then stringBody raw quote triple (.digits 16 2 0) rest
    else if c = 'u' then stringBody raw quote triple (.digits 16 4 0) rest
    else if c = 'U' then stringBody raw quote triple (.digits 16 8 0) rest
    else if '0' ≤ c ∧ c ≤ '3' then
      stringBody raw quote triple (.digits 8 2 (c.toNat - '0'.toNat)) rest
    else match simpleEscape c with
      | some value => push value (stringBody raw quote triple .plain rest)
      | none => none
  | .digits base left value, c :: rest =>
    match digit? base c with
    | none => none
    | some digit =>
      if left ≤ 1 then
        match scalar? (value * base + digit) with
        | some c => push c (stringBody raw quote triple .plain rest)
        | none => none
      else stringBody raw quote triple (.digits base (left - 1) (value * base + digit)) rest

/-- A string from its opening quotes on. -/
def quoted (raw : Bool) : List Char → Option (List Char × List Char)
  | a :: rest =>
    if !isQuote a then none
    else match rest with
      | b :: c :: after =>
        if b = a ∧ c = a then stringBody raw a true .plain after
          else stringBody raw a false .plain rest
      | _ => stringBody raw a false .plain rest
  | [] => none

/-- A string or bytes literal: optional letters b and r, then quotes. -/
def stringToken (cs : List Char) : Option (Token × List Char) :=
  let string raw cs := (quoted raw cs).map fun (body, rest) =>
    (Token.str (String.ofList body), rest)
  let bytes raw cs := (quoted raw cs).map fun (body, rest) =>
    (Token.bytes (String.ofList body), rest)
  match cs with
  | a :: rest =>
    if isQuote a then string false cs
    else if a = 'r' ∨ a = 'R' then string true rest
    else if a = 'b' ∨ a = 'B' then
      match rest with
      | b :: after => if b = 'r' ∨ b = 'R' then bytes true after else bytes false rest
      | [] => none
    else none
  | [] => none

/-- `e`, an optional sign and digits. -/
def exponent (cs : List Char) : Option (List Char × List Char) :=
  match cs with
  | e :: rest =>
    if e = 'e' ∨ e = 'E' then
      let (sign, rest) := match rest with
        | s :: after => if s = '+' ∨ s = '-' then ([s], after) else ([], rest)
        | [] => ([], [])
      let digits := rest.takeWhile Char.isDigit
      if digits = [] then none else some (e :: sign ++ digits, rest.drop digits.length)
    else none
  | [] => none

/-- A point and digits. -/
def fraction : List Char → Option (List Char × List Char)
  | '.' :: rest =>
    let digits := rest.takeWhile Char.isDigit
    if digits = [] then none else some ('.' :: digits, rest.drop digits.length)
  | _ => none

/-- A whole number may be marked as unsigned. -/
def integer (value : Nat) : List Char → Token × List Char
  | c :: rest => if c = 'u' ∨ c = 'U' then (.uint value, rest) else (.int value, c :: rest)
  | [] => (.int value, [])

def number (cs : List Char) : Option (Token × List Char) :=
  let digits := cs.takeWhile Char.isDigit
  let rest := cs.drop digits.length
  match fraction rest with
  | some (point, rest) =>
    match exponent rest with
    | some (power, rest) => some (.float (digits ++ point ++ power), rest)
    | none => some (.float (digits ++ point), rest)
  | none =>
    if digits = [] then none
    else match exponent rest with
    | some (power, rest) => some (.float (digits ++ power), rest)
    | none =>
      match digits, rest with
      | ['0'], 'x' :: more =>
        let hex := more.takeWhile fun c => (digit? 16 c).isSome
        if hex = [] then some (.int 0, rest)
          else some (integer (numeral 16 hex) (more.drop hex.length))
      | _, _ => some (integer (numeral 10 digits) rest)

def word (name : String) : Token :=
  if name = "true" then .bool true
  else if name = "false" then .bool false
  else if name = "null" then .null
  else if name = "in" then .sym .in
  else .ident name

def symbol : List Char → Option (Symbol × List Char)
  | '|' :: '|' :: rest => some (.or, rest)
  | '&' :: '&' :: rest => some (.and, rest)
  | '<' :: '=' :: rest => some (.le, rest)
  | '>' :: '=' :: rest => some (.ge, rest)
  | '=' :: '=' :: rest => some (.eq, rest)
  | '!' :: '=' :: rest => some (.ne, rest)
  | '<' :: rest => some (.lt, rest)
  | '>' :: rest => some (.gt, rest)
  | '!' :: rest => some (.bang, rest)
  | '(' :: rest => some (.lparen, rest)
  | ')' :: rest => some (.rparen, rest)
  | '[' :: rest => some (.lbracket, rest)
  | ']' :: rest => some (.rbracket, rest)
  | '\x7b' :: rest => some (.lbrace, rest)
  | '\x7d' :: rest => some (.rbrace, rest)
  | ',' :: rest => some (.comma, rest)
  | ':' :: rest => some (.colon, rest)
  | '.' :: rest => some (.dot, rest)
  | '?' :: rest => some (.question, rest)
  | '-' :: rest => some (.minus, rest)
  | '+' :: rest => some (.plus, rest)
  | '*' :: rest => some (.star, rest)
  | '/' :: rest => some (.slash, rest)
  | '%' :: rest => some (.percent, rest)
  | _ => none

/-- The longest token: a string is tried before a word, a number before a dot. -/
def token (cs : List Char) : Option (Token × List Char) :=
  match stringToken cs with
  | some found => some found
  | none =>
    match cs.takeWhile isWord, number cs with
    | _, some found => some found
    | [], none => (symbol cs).map fun (s, rest) => (.sym s, rest)
    | name, none => some (word (String.ofList name), cs.drop name.length)

/-- Tokens up to the end, at most one for each unit of fuel, between white space and
comments. -/
def lexAll : Nat → List Char → Option (List Token)
  | _, [] => some []
  | 0, _ :: _ => none
  | fuel + 1, c :: rest =>
    if isSpace c then lexAll fuel rest
    else if c = '/' ∧ rest.head? = some '/' then lexAll fuel (rest.dropWhile (· ≠ '\n'))
    else match token (c :: rest) with
      | some (t, after) => (lexAll fuel after).map (t :: ·)
      | none => none

def lex (cs : List Char) : Option (List Token) := lexAll cs.length cs

end TunnelOperator.CelText
