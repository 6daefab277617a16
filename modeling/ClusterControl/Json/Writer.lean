import ClusterControl.Json.Basic
import ClusterControl.Text.Hex

/-!
# The text of a JSON value

Nothing stands between the tokens. Inside a text only the quote, the backslash and the control
characters are escaped.
-/

namespace ClusterControl.Json

def escapeChar (c : Char) : List Char :=
  if c = '"' then ['\\', '"']
  else if c = '\\' then ['\\', '\\']
  else if c = '\n' then ['\\', 'n']
  else if c = '\r' then ['\\', 'r']
  else if c = '\t' then ['\\', 't']
  else if c = '\x08' then ['\\', 'b']
  else if c = '\x0c' then ['\\', 'f']
  else if c.toNat < 0x20 then
    ['\\', 'u', '0', '0', Text.hexDigit (c.toNat / 16), Text.hexDigit (c.toNat % 16)]
  else [c]

def quoted (s : String) : List Char := '"' :: s.toList.flatMap escapeChar ++ ['"']

def Number.render : Number → List Char
  | .whole i => (toString i).toList
  | .real x => x.compactText.toList

mutual

def render : Json → List Char
  | .null => ['n', 'u', 'l', 'l']
  | .bool true => ['t', 'r', 'u', 'e']
  | .bool false => ['f', 'a', 'l', 's', 'e']
  | .number n => n.render
  | .text s => quoted s
  | .list items => '[' :: renderItems items ++ [']']
  | .object members => '\x7b' :: renderMembers members ++ ['\x7d']

def renderItems : List Json → List Char
  | [] => []
  | [x] => render x
  | x :: y :: rest => render x ++ ',' :: renderItems (y :: rest)

def renderMembers : List (String × Json) → List Char
  | [] => []
  | [(n, x)] => quoted n ++ ':' :: render x
  | (n, x) :: m :: rest => quoted n ++ ':' :: render x ++ ',' :: renderMembers (m :: rest)

end

def toText (j : Json) : String := String.ofList j.render

end ClusterControl.Json
