import ReconcileTrigger.Json.Value

/-!
The written forms of JSON documents: compact without spaces, and indented by two spaces.
-/

namespace ReconcileTrigger.Json

def escapedChar (c : Char) : List Char :=
  if c = '"' then ['\\', '"']
  else if c = '\\' then ['\\', '\\']
  else if c = '\x08' then ['\\', 'b']
  else if c = '\t' then ['\\', 't']
  else if c = '\n' then ['\\', 'n']
  else if c = '\x0c' then ['\\', 'f']
  else if c = '\r' then ['\\', 'r']
  else if c.toNat < 0x20 then
    ['\\', 'u', '0', '0', Nat.digitChar (c.toNat / 16), Nat.digitChar (c.toNat % 16)]
  else [c]

def quoted (s : String) : String :=
  String.ofList ('"' :: s.toList.flatMap escapedChar ++ ['"'])

namespace Value

mutual

def text : Value → String
  | .null => "null"
  | .bool true => "true"
  | .bool false => "false"
  | .number n => n.text
  | .string s => quoted s
  | .array elements => "[" ++ ",".intercalate (elementTexts elements) ++ "]"
  | .object members => "\x7b" ++ ",".intercalate (memberTexts members) ++ "\x7d"

def elementTexts : List Value → List String
  | [] => []
  | v :: rest => text v :: elementTexts rest

def memberTexts : List (String × Value) → List String
  | [] => []
  | (key, v) :: rest => (quoted key ++ ":" ++ text v) :: memberTexts rest

end

def block (opening closing margin : String) (items : List String) : String :=
  if items.isEmpty then opening ++ closing
  else
    let line := "\n" ++ margin
    opening ++ line ++ "  " ++ (("," ++ line ++ "  ").intercalate items) ++ line ++ closing

mutual

def indented (margin : String) : Value → String
  | .array elements => block "[" "]" margin (indentedElements (margin ++ "  ") elements)
  | .object members =>
    block "\x7b" "\x7d" margin (indentedMembers (margin ++ "  ") members)
  | v => v.text

def indentedElements (margin : String) : List Value → List String
  | [] => []
  | v :: rest => indented margin v :: indentedElements margin rest

def indentedMembers (margin : String) : List (String × Value) → List String
  | [] => []
  | (key, v) :: rest =>
    (quoted key ++ ": " ++ indented margin v) :: indentedMembers margin rest

end

end Value

end ReconcileTrigger.Json
