import Scriptlet.Number.Layout
import Scriptlet.Text.Quoted
import Scriptlet.Token.Basic

/-!
# Token listings

The plain listing has one line per token: its name, its lexeme, and its literal or `null`. The structured
listing is an array of records, indented by two spaces.
-/
namespace Scriptlet.Token

def listing (t : Token) : String :=
  let start := t.kind.name ++ " " ++ t.lexeme ++ " "
  match t.kind with
  | .string content => start ++ content
  | .number x => start ++ Number.literalText x
  | _ => start ++ "null"

/-- The kind as a name, or as a record of a name and a value. -/
def Kind.structured (k : Kind) : List String :=
  let name := Text.quotedListed k.name
  let record (value : String) := ["\x7b", "      " ++ name ++ ": " ++ value, "    \x7d"]
  match k with
  | .string content => record (Text.quotedListed content)
  | .number x => record (Number.listedText x)
  | _ => [name]

/-- The lines of a record, without the comma that follows all but the last. -/
def structured (t : Token) : String :=
  "\n".intercalate
    ["  \x7b",
      "    \"token_type\": " ++ "\n".intercalate t.kind.structured ++ ",",
      "    \"lexeme\": " ++ Text.quotedListed t.lexeme ++ ",",
      "    \"line\": " ++ toString t.line,
      "  \x7d"]

def structuredListing (tokens : List Token) : String :=
  if tokens.isEmpty then "[]" else "[\n" ++ ",\n".intercalate (tokens.map structured) ++ "\n]"

end Scriptlet.Token
