import QueryTemplate.Text.Basic

/-!
# Built-in escapers

The escapers that need no connection. Two ways of escaping cover them: the backslash escapes of
MySQL, and the doubled quote of standard SQL. A literal is the escaped text between single quotes.
-/

namespace QueryTemplate

inductive EscapeStyle where
  | backslash
  | doubledQuote
deriving DecidableEq

namespace EscapeStyle

/-- The control characters and the marks that a backslash protects. -/
def backslashed : Char → Text
  | '\x00' => ['\\', '0']
  | '\n' => ['\\', 'n']
  | '\r' => ['\\', 'r']
  | '\x1a' => ['\\', 'Z']
  | '\\' => ['\\', '\\']
  | '\'' => ['\\', '\'']
  | '"' => ['\\', '"']
  | c => [c]

def char : EscapeStyle → Char → Text
  | backslash, c => backslashed c
  | doubledQuote, c => if c = '\'' then ['\'', '\''] else [c]

def escape (style : EscapeStyle) (t : Text) : Text := t.flatMap style.char

def quote (style : EscapeStyle) (t : Text) : Text := '\'' :: style.escape t ++ ['\'']

end EscapeStyle

inductive Builtin where
  | mysql
  | standard
  | sqlite
  | postgresql
deriving DecidableEq

namespace Builtin

def dialect : Builtin → String
  | mysql => "mysql"
  | standard => "ansi"
  | sqlite => "sqlite"
  | postgresql => "postgresql"

def style : Builtin → EscapeStyle
  | mysql => .backslash
  | _ => .doubledQuote

end Builtin

end QueryTemplate
