import TreeStore.Text.Visible
import TreeStore.Text.Numeral
/-!
Text in double quotes, as it is shown to a person: quotes and backslashes are marked, the common
controls have letters, and any other character that does not show itself is given by its code
point.
-/
namespace TreeStore.Text

def quoteChar (c : Char) : List Char :=
  if c = '\x00' then ['\\', '0']
  else if c = '\t' then ['\\', 't']
  else if c = '\r' then ['\\', 'r']
  else if c = '\n' then ['\\', 'n']
  else if c = '\\' then ['\\', '\\']
  else if c = '"' then ['\\', '"']
  else if isVisible c then [c]
  else ['\\', 'u', '\x7b'] ++ numeral 16 c.toNat ++ ['\x7d']

def quoted (text : String) : String :=
  String.ofList ('"' :: text.toList.flatMap quoteChar ++ ['"'])

end TreeStore.Text
