import Outlay.Data.OrderedMap
import Outlay.Json

/-!
# Reading JSON

A client at the other end of the wire, which reads the texts it is given: white space
between the tokens is skipped, arrays and objects are nested up to a limit, a field
replaces an earlier one of its key, and nothing but white space follows the value.
What the program itself reads is decoded by a library, and is a parameter wherever it
matters.

A number is read as the literal that the client would print its value as (`fmt`), which
for a fraction depends on the printing of floats, and is a parameter.
-/

namespace Outlay.Json

/-- White space between tokens. -/
def isSpace (c : Char) : Bool := c = ' ' || c = '\n' || c = '\t' || c = '\r'

/-- Skipping white space. -/
def skipSpace (cs : List Char) : List Char := cs.dropWhile isSpace

/-! ## Strings -/

/-- The value of a hexadecimal digit, of either case. -/
def hexVal (c : Char) : Option ℕ :=
  if '0' ≤ c ∧ c ≤ '9' then some (c.toNat - 48)
  else if 'a' ≤ c ∧ c ≤ 'f' then some (c.toNat - 87)
  else if 'A' ≤ c ∧ c ≤ 'F' then some (c.toNat - 55)
  else none

/-- Four hexadecimal digits, and what follows them. -/
def readHex4 : List Char → Option (ℕ × List Char)
  | a :: b :: c :: d :: r =>
    match hexVal a, hexVal b, hexVal c, hexVal d with
    | some a, some b, some c, some d => some (4096 * a + 256 * b + 16 * c + d, r)
    | _, _, _, _ => none
  | _ => none

/-- The character of a code unit, or of a pair of surrogates. -/
def readUnicode (cs : List Char) : Option (Char × List Char) :=
  match readHex4 cs with
  | none => none
  | some (n, r) =>
    if 0xD800 ≤ n ∧ n < 0xDC00 then
      match r with
      | '\\' :: 'u' :: r =>
        match readHex4 r with
        | some (m, r) =>
          if 0xDC00 ≤ m ∧ m < 0xE000 then
            some (Char.ofNat (0x10000 + 1024 * (n - 0xD800) + (m - 0xDC00)), r)
          else none
        | none => none
      | _ => none
    -- A trailing surrogate alone.
    else if 0xDC00 ≤ n ∧ n < 0xE000 then none
    else some (Char.ofNat n, r)

/-- The character that is escaped, after a backslash. -/
def unescapeChar : List Char → Option (Char × List Char)
  | [] => none
  | c :: r =>
    if c = '"' ∨ c = '\\' ∨ c = '/' then some (c, r)
    else if c = 'n' then some ('\n', r)
    else if c = 'r' then some ('\r', r)
    else if c = 't' then some ('\t', r)
    else if c = 'b' then some (Char.ofNat 8, r)
    else if c = 'f' then some (Char.ofNat 12, r)
    else if c = 'u' then readUnicode r
    else none

/-- The characters of a string up to its closing quote, at most `fuel - 1` of them. -/
def readChars : ℕ → List Char → Option (List Char × List Char)
  | 0, _ | _, [] => none
  | fuel + 1, c :: r =>
    if c = '"' then some ([], r)
    else if c = '\\' then
      match unescapeChar r with
      | some (c, r) => (readChars fuel r).map fun p => (c :: p.1, p.2)
      | none => none
    -- Control characters are to be escaped.
    else if c.toNat < 32 then none
    else (readChars fuel r).map fun p => (c :: p.1, p.2)

/-- A string, after its opening quote. -/
def readString (cs : List Char) : Option (String × List Char) :=
  (readChars cs.length cs).map fun p => (.ofList p.1, p.2)

/-! ## Numbers -/

/-- A character of a number. -/
def isNumChar (c : Char) : Bool :=
  c.isDigit || c = '-' || c = '+' || c = '.' || c = 'e' || c = 'E'

/-- An exponent, or none. -/
def isExponent : List Char → Bool
  | [] => true
  | e :: r =>
    let digits := match r with
      | c :: l => if c = '+' || c = '-' then l else r
      | [] => []
    (e = 'e' || e = 'E') && !digits.isEmpty && digits.all Char.isDigit

/-- A fraction and an exponent, or either, or none. -/
def isFraction : List Char → Bool
  | '.' :: r => !(r.takeWhile Char.isDigit).isEmpty && isExponent (r.dropWhile Char.isDigit)
  | r => isExponent r

/-- A number without a sign: an integer without leading zeros, a fraction and an exponent. -/
def isUnsigned : List Char → Bool
  | '0' :: r => isFraction r
  | c :: r => c.isDigit && isFraction (r.dropWhile Char.isDigit)
  | [] => false

/-- A number. -/
def isNumber : List Char → Bool
  | '-' :: r => isUnsigned r
  | r => isUnsigned r

/-! ## Values -/

/-- The items of a sequence that is not empty, up to its closing bracket, at most `fuel`. -/
def readItems {α : Type} (item : List Char → Option (α × List Char)) (close : Char) :
    ℕ → List Char → Option (List α × List Char)
  | 0, _ => none
  | fuel + 1, cs =>
    match item cs with
    | none => none
    | some (v, r) =>
      match skipSpace r with
      | [] => none
      | c :: r =>
        if c = ',' then (readItems item close fuel r).map fun p => (v :: p.1, p.2)
        else if c = close then some ([v], r)
        else none

/-- A sequence, after its opening bracket. -/
def readSequence {α : Type} (item : List Char → Option (α × List Char)) (close : Char)
    (cs : List Char) : Option (List α × List Char) :=
  match skipSpace cs with
  | [] => none
  | c :: r => if c = close then some ([], r) else readItems item close cs.length cs

/-- A field: a key, a colon and a value. -/
def readField (value : List Char → Option (Json × List Char)) (cs : List Char) :
    Option ((String × Json) × List Char) :=
  match skipSpace cs with
  | '"' :: r =>
    match readString r with
    | none => none
    | some (k, r) =>
      match skipSpace r with
      | ':' :: r => (value r).map fun p => ((k, p.1), p.2)
      | _ => none
  | _ => none

/-- The map of some fields, of which later ones replace earlier ones. -/
def ofFields (fields : List (String × Json)) : List (String × Json) :=
  fields.foldl (fun m f => OrderedMap.insert f.1 f.2 m) []

/-- The rest of a name, whose first character is read. -/
def readIdent (v : Json) (ident r : List Char) : Option (Json × List Char) :=
  if ident.isPrefixOf r then some (v, r.drop ident.length) else none

/-- A number. -/
def readNumber (fmt : String → Option String) (cs : List Char) : Option (Json × List Char) :=
  let lit := cs.takeWhile isNumChar
  if isNumber lit then (fmt (.ofList lit)).map fun l => (.num l, cs.dropWhile isNumChar)
  else none

/-- A value whose arrays and objects are nested `depth` times at most, and what follows it. -/
def readValue (fmt : String → Option String) (depth : ℕ) (cs : List Char) :
    Option (Json × List Char) :=
  match skipSpace cs with
  | [] => none
  | c :: r =>
    if c = 'n' then readIdent .null "ull".toList r
    else if c = 't' then readIdent (.bool true) "rue".toList r
    else if c = 'f' then readIdent (.bool false) "alse".toList r
    else if c = '"' then (readString r).map fun p => (.str p.1, p.2)
    else if c = '[' then
      match depth with
      | 0 => none
      | d + 1 => (readSequence (readValue fmt d) ']' r).map fun p => (.arr p.1, p.2)
    else if c = '\x7b' then
      match depth with
      | 0 => none
      | d + 1 => (readSequence (readField (readValue fmt d)) '\x7d' r).map
          fun p => (.obj (ofFields p.1), p.2)
    else readNumber fmt (c :: r)

/-- The number of arrays and objects that a value may be nested in each other. -/
def depthLimit : ℕ := 127

/-- The value that a client reads in a text, if there is one. -/
def parse (fmt : String → Option String) (text : String) : Option Json :=
  match readValue fmt depthLimit text.toList with
  | some (v, r) => if skipSpace r = [] then some v else none
  | none => none

example : (parse some " [\"REQ\",\"s\", \x7b\"kinds\":[1],\"a\":-2.5e3\x7d ]").map render =
    some "[\"REQ\",\"s\",\x7b\"a\":-2.5e3,\"kinds\":[1]\x7d]" := by decide +kernel

end Outlay.Json
