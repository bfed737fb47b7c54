import ComponentHost.Text.Quoted
import ComponentHost.Value.Json

/-! # Values in messages

  Messages show a value with its kind: `Number(1)`, `String("x")`, `Array [Null]`.
-/

namespace ComponentHost.Value

mutual

def shown : Value → String
  | .null => "Null"
  | .bool b => "Bool(" ++ toString b ++ ")"
  | .number n => "Number(" ++ Json.number n ++ ")"
  | .string s => "String(" ++ Text.quoted s ++ ")"
  | .array items => "Array " ++ Text.listed (shownItems items)
  | .object fields => "Object \x7b" ++ String.intercalate ", " (shownFields fields) ++ "\x7d"

def shownItems : List Value → List String
  | [] => []
  | x :: xs => shown x :: shownItems xs

def shownFields : List (String × Value) → List String
  | [] => []
  | (k, x) :: xs => (Text.quoted k ++ ": " ++ shown x) :: shownFields xs

end

def shownList (items : List Value) : String := Text.listed (items.map shown)

end ComponentHost.Value
