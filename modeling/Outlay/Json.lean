import Mathlib

/-!
# JSON values

The values the two crates build frames and tool arguments from, and the texts they
are printed as: the compact one (`serde_json`'s `to_string`), and the one with line
breaks (`to_string_pretty`).
-/

namespace Outlay

/-- A JSON value. A number is carried as the literal it is printed as. -/
inductive Json
  | null
  | bool (b : Bool)
  | num (lit : String)
  | str (s : String)
  | arr (items : List Json)
  | obj (fields : List (String × Json))

namespace Json

/-- The four hexadecimal digits of a control character. -/
def hex4 (c : Char) : String :=
  String.ofList ['0', '0', Nat.digitChar (c.toNat / 16), Nat.digitChar (c.toNat % 16)]

/-- A character inside a printed string: quotes, backslashes and control
    characters are escaped. -/
def escapeChar (c : Char) : String :=
  if c = '"' then "\\\""
  else if c = '\\' then "\\\\"
  else if c = '\n' then "\\n"
  else if c = '\r' then "\\r"
  else if c = '\t' then "\\t"
  else if c.toNat = 8 then "\\b"
  else if c.toNat = 12 then "\\f"
  else if c.toNat < 32 then "\\u" ++ hex4 c
  else c.toString

/-- A printed string. -/
def quote (s : String) : String := "\"" ++ String.join (s.toList.map escapeChar) ++ "\""

mutual

/-- The compact text of a value. -/
def render : Json → String
  | .null => "null"
  | .bool b => if b then "true" else "false"
  | .num lit => lit
  | .str s => quote s
  | .arr items => "[" ++ renderItems items ++ "]"
  | .obj fields => "\x7b" ++ renderFields fields ++ "\x7d"

/-- The items of an array, separated by commas. -/
def renderItems : List Json → String
  | [] => ""
  | [v] => v.render
  | v :: w :: items => v.render ++ "," ++ renderItems (w :: items)

/-- The fields of an object, separated by commas. -/
def renderFields : List (String × Json) → String
  | [] => ""
  | [(k, v)] => quote k ++ ":" ++ v.render
  | (k, v) :: f :: fields => quote k ++ ":" ++ v.render ++ "," ++ renderFields (f :: fields)

end

/-- The indentation of a line, at a depth of nesting. -/
def indent (depth : Nat) : String := String.ofList (List.replicate (2 * depth) ' ')

mutual

/-- The text of a value with line breaks, at a depth of nesting. -/
def renderPretty (depth : Nat) : Json → String
  | .null => "null"
  | .bool b => if b then "true" else "false"
  | .num lit => lit
  | .str s => quote s
  | .arr [] => "[]"
  | .arr (v :: items) =>
    "[\n" ++ renderPrettyItems (depth + 1) (v :: items) ++ "\n" ++ indent depth ++ "]"
  | .obj [] => "\x7b\x7d"
  | .obj (f :: fields) =>
    "\x7b\n" ++ renderPrettyFields (depth + 1) (f :: fields) ++ "\n" ++ indent depth ++ "\x7d"

/-- The items of an array, one a line. -/
def renderPrettyItems (depth : Nat) : List Json → String
  | [] => ""
  | [v] => indent depth ++ v.renderPretty depth
  | v :: w :: items =>
    indent depth ++ v.renderPretty depth ++ ",\n" ++ renderPrettyItems depth (w :: items)

/-- The fields of an object, one a line. -/
def renderPrettyFields (depth : Nat) : List (String × Json) → String
  | [] => ""
  | [(k, v)] => indent depth ++ quote k ++ ": " ++ v.renderPretty depth
  | (k, v) :: f :: fields =>
    indent depth ++ quote k ++ ": " ++ v.renderPretty depth ++ ",\n" ++
      renderPrettyFields depth (f :: fields)

end

/-- `serde_json::to_string_pretty`, which does not fail on a value. -/
def toStringPretty (v : Json) : String := v.renderPretty 0

/-- `Value::as_str`. -/
def asStr : Json → Option String
  | .str s => some s
  | _ => none

/-- `Value::as_bool`. -/
def asBool : Json → Option Bool
  | .bool b => some b
  | _ => none

/-- `Value::get` with a key: the field of an object. -/
def get (key : String) : Json → Option Json
  | .obj fields => fields.lookup key
  | _ => none

/-! ## Equality -/

mutual

/-- Whether two values are the same. -/
def beq : Json → Json → Bool
  | .null, .null => true
  | .bool a, .bool b => a == b
  | .num a, .num b | .str a, .str b => a == b
  | .arr items, .arr items' => beqItems items items'
  | .obj fields, .obj fields' => beqFields fields fields'
  | _, _ => false

/-- Whether two lists of items are the same. -/
def beqItems : List Json → List Json → Bool
  | [], [] => true
  | v :: items, w :: items' => beq v w && beqItems items items'
  | _, _ => false

/-- Whether two lists of fields are the same. -/
def beqFields : List (String × Json) → List (String × Json) → Bool
  | [], [] => true
  | (k, v) :: fields, (l, w) :: fields' => k == l && beq v w && beqFields fields fields'
  | _, _ => false

end

mutual

theorem beq_iff : ∀ v w : Json, beq v w = true ↔ v = w
  | .arr items, .arr items' => by rw [beq, beqItems_iff items items', Json.arr.injEq]
  | .obj fields, .obj fields' => by rw [beq, beqFields_iff fields fields', Json.obj.injEq]
  | .null, w | .bool _, w | .num _, w | .str _, w => by cases w <;> simp [beq]
  | .arr _, .null | .arr _, .bool _ | .arr _, .num _ | .arr _, .str _ | .arr _, .obj _
  | .obj _, .null | .obj _, .bool _ | .obj _, .num _ | .obj _, .str _ | .obj _, .arr _ => by
    simp [beq]

theorem beqItems_iff : ∀ l m : List Json, beqItems l m = true ↔ l = m
  | v :: items, w :: items' => by
    rw [beqItems, Bool.and_eq_true, beq_iff v w, beqItems_iff items items', List.cons.injEq]
  | [], m => by cases m <;> simp [beqItems]
  | _ :: _, [] => by simp [beqItems]

theorem beqFields_iff : ∀ l m : List (String × Json), beqFields l m = true ↔ l = m
  | (k, v) :: fields, (l, w) :: fields' => by
    rw [beqFields, Bool.and_eq_true, Bool.and_eq_true, beq_iff v w, beqFields_iff fields fields',
      beq_iff_eq, List.cons.injEq, Prod.mk.injEq]
  | [], m => by cases m <;> simp [beqFields]
  | _ :: _, [] => by simp [beqFields]

end

instance : DecidableEq Json := fun v w => decidable_of_iff _ (beq_iff v w)

example : (Json.arr [.str "OK", .bool true, .obj [("a\n", .num "1")]]).render =
    "[\"OK\",true,\x7b\"a\\n\":1\x7d]" := by decide

end Json

end Outlay
