import Chatbit.Lib.OrderedDict
import Mathlib.Data.Int.Basic

/-!
# JSON text

`json.dumps`, which writes ASCII only, with an indent or without one, and `json.loads`. A string is
the list of its code points, as in the language these functions are of: surrogates may be among
them. A code point above U+FFFF is written as two surrogates, and two escapes that are a pair of
surrogates are read as one code point. How floats are written and read is a parameter.
-/

namespace Chatbit.Lib

/-- The code points of a string. -/
def codePoints (s : String) : List ℕ := s.toList.map Char.toNat

/-- The string of these code points, if they have one: a surrogate is no character. -/
def ofCodePoints (s : List ℕ) : Option String :=
  (s.mapM fun c => if Nat.isValidChar c then some (Char.ofNat c) else none).map String.ofList

/-- A value. The items of an object stand in the order of the dictionary. -/
inductive Json (F : Type) where
  | null
  | bool (b : Bool)
  | int (n : ℤ)
  | float (x : F)
  | str (s : List ℕ)
  | arr (items : List (Json F))
  | obj (fields : List (List ℕ × Json F))

/-- The floats of the language. -/
structure FloatFormat (F : Type) where
  /-- What the encoder writes: `float.__repr__`, or one of the three constants. -/
  repr : F → List Char
  /-- `float(token)` -/
  read : List Char → F
  nan : F
  infinity : F
  negInfinity : F

namespace Json

variable {F : Type}

/-- A dictionary with these keys. -/
def object (fields : List (String × Json F)) : Json F :=
  .obj (fields.map fun (key, v) => (codePoints key, v))

/-- `d.get(key)`, on the items of an object. -/
def get? (fields : List (List ℕ × Json F)) (key : String) : Option (Json F) :=
  (fields.find? fun field => field.1 = codePoints key).map Prod.snd

/-! ## Strings -/

def isHighSurrogate (c : ℕ) : Bool := 0xD800 ≤ c && c ≤ 0xDBFF

def isLowSurrogate (c : ℕ) : Bool := 0xDC00 ≤ c && c ≤ 0xDFFF

/-- The escape of a code unit. -/
def unicodeEscape (n : ℕ) : List Char :=
  ['\\', 'u', Nat.digitChar (n / 0x1000 % 16), Nat.digitChar (n / 0x100 % 16),
    Nat.digitChar (n / 0x10 % 16), Nat.digitChar (n % 16)]

/-- `ESCAPE_DCT` -/
def shortEscapes : List (ℕ × Char) :=
  [(0x5C, '\\'), (0x22, '"'), (0x08, 'b'), (0x0C, 'f'), (0x0A, 'n'), (0x0D, 'r'), (0x09, 't')]

/-- `py_encode_basestring_ascii`, for one code point. -/
def escape (c : ℕ) : List Char :=
  match shortEscapes.lookup c with
  | some letter => ['\\', letter]
  | none =>
    if 0x20 ≤ c ∧ c ≤ 0x7E then [Char.ofNat c]
    else if c < 0x10000 then unicodeEscape c
    else unicodeEscape (0xD800 + (c - 0x10000) / 0x400) ++
      unicodeEscape (0xDC00 + (c - 0x10000) % 0x400)

/-- A string between quotes. -/
def quote (s : List ℕ) : List Char := '"' :: (s.flatMap escape ++ ['"'])

/-- `BACKSLASH`: what a letter after a backslash stands for. -/
def backslash : List (Char × ℕ) :=
  [('"', 0x22), ('\\', 0x5C), ('/', 0x2F), ('b', 0x08), ('f', 0x0C), ('n', 0x0A), ('r', 0x0D),
    ('t', 0x09)]

/-- A hexadecimal digit. -/
def hexDigit (c : Char) : Option ℕ :=
  if '0' ≤ c ∧ c ≤ '9' then some (c.toNat - 48)
  else if 'a' ≤ c ∧ c ≤ 'f' then some (c.toNat - 87)
  else if 'A' ≤ c ∧ c ≤ 'F' then some (c.toNat - 55)
  else none

/-- What an escaped code unit adds in front of a string. Only another escape can have put a low
surrogate there. -/
def consUnit (c : ℕ) : List ℕ → List ℕ
  | [] => [c]
  | low :: s =>
    if isHighSurrogate c && isLowSurrogate low then
      (0x10000 + (c - 0xD800) * 0x400 + (low - 0xDC00)) :: s
    else c :: low :: s

/-- `scanstring`, from behind the opening quote: the string, and what follows the closing one. -/
def scanString : List Char → Option (List ℕ × List Char)
  | [] => none
  | c :: text =>
    if c = '"' then some ([], text)
    else if c = '\\' then
      match text with
      | [] => none
      | letter :: text =>
        if letter = 'u' then
          match text with
          | d3 :: d2 :: d1 :: d0 :: text => do
            let n := 0x1000 * (← hexDigit d3) + 0x100 * (← hexDigit d2) + 0x10 * (← hexDigit d1) +
              (← hexDigit d0)
            let (s, rest) ← scanString text
            return (consUnit n s, rest)
          | _ => none
        else do
          let n ← backslash.lookup letter
          let (s, rest) ← scanString text
          return (n :: s, rest)
    -- `strict`: no control characters in a string
    else if c.toNat < 0x20 then none
    else do
      let (s, rest) ← scanString text
      return (c.toNat :: s, rest)

/-! ## Numbers -/

/-- `int.__repr__` -/
def intText : ℤ → List Char
  | .ofNat n => Nat.toDigits 10 n
  | .negSucc n => '-' :: Nat.toDigits 10 (n + 1)

/-- A match of `NUMBER_RE`: the exponent with its letter and its sign, and nothing where there is
no fraction or no exponent. -/
structure Number where
  negative : Bool
  whole : List Char
  fraction : List Char
  exponent : List Char

def Number.text (n : Number) : List Char :=
  (if n.negative then ['-'] else []) ++ n.whole ++
    (if n.fraction = [] then [] else '.' :: n.fraction) ++ n.exponent

/-- `0|[1-9][0-9]*` -/
def scanWhole : List Char → Option (List Char × List Char)
  | [] => none
  | c :: text =>
    if c = '0' then some (['0'], text)
    else if c.isDigit then some ((c :: text).span Char.isDigit)
    else none

/-- `(\.[0-9]+)?` -/
def scanFraction : List Char → List Char × List Char
  | [] => ([], [])
  | c :: text =>
    if c = '.' ∧ (text.span Char.isDigit).1 ≠ [] then text.span Char.isDigit else ([], c :: text)

/-- `[-+]?` -/
def scanSign : List Char → List Char × List Char
  | [] => ([], [])
  | c :: text => if c = '-' ∨ c = '+' then ([c], text) else ([], c :: text)

/-- `([eE][-+]?[0-9]+)?` -/
def scanExponent : List Char → List Char × List Char
  | [] => ([], [])
  | c :: text =>
    let (sign, unsigned) := scanSign text
    let (digits, rest) := unsigned.span Char.isDigit
    if (c = 'e' ∨ c = 'E') ∧ digits ≠ [] then (c :: (sign ++ digits), rest) else ([], c :: text)

/-- `match_number` -/
def scanNumber (text : List Char) : Option (Number × List Char) := do
  let negative := text.head? = some '-'
  let (whole, rest) ← scanWhole (if negative then text.tail else text)
  let (fraction, rest) := scanFraction rest
  let (exponent, rest) := scanExponent rest
  return (⟨negative, whole, fraction, exponent⟩, rest)

variable (J : FloatFormat F)

/-- What a number is read as. -/
def Number.value (n : Number) : Json F :=
  if n.fraction = [] ∧ n.exponent = [] then
    .int (if n.negative then -Nat.ofDigitChars 10 n.whole 0 else Nat.ofDigitChars 10 n.whole 0)
  else .float (J.read n.text)

/-! ## Writing -/

section Writing

variable (indent : Option ℕ)

/-- Where an indent is given, the items of a container stand on lines of their own. -/
def newline (level : ℕ) : List Char :=
  match indent with
  | none => []
  | some width => '\n' :: List.replicate (width * level) ' '

/-- `item_separator` with what follows it. -/
def separator (level : ℕ) : List Char :=
  ',' :: if indent.isNone then [' '] else newline indent level

mutual

/-- `_iterencode` -/
def encode (level : ℕ) : Json F → List Char
  | .null => ['n', 'u', 'l', 'l']
  | .bool true => ['t', 'r', 'u', 'e']
  | .bool false => ['f', 'a', 'l', 's', 'e']
  | .int n => intText n
  | .float x => J.repr x
  | .str s => quote s
  | .arr [] => ['[', ']']
  | .arr (item :: items) =>
    '[' :: (newline indent (level + 1) ++ encode (level + 1) item ++ encodeItems (level + 1) items ++
      newline indent level ++ [']'])
  | .obj [] => ['\x7b', '\x7d']
  | .obj ((key, value) :: fields) =>
    '\x7b' :: (newline indent (level + 1) ++ quote key ++ [':', ' '] ++ encode (level + 1) value ++
      encodeFields (level + 1) fields ++ newline indent level ++ ['\x7d'])

/-- The items after the first one, each with the separator before it. -/
def encodeItems (level : ℕ) : List (Json F) → List Char
  | [] => []
  | item :: items => separator indent level ++ encode level item ++ encodeItems level items

def encodeFields (level : ℕ) : List (List ℕ × Json F) → List Char
  | [] => []
  | (key, value) :: fields =>
    separator indent level ++ quote key ++ [':', ' '] ++ encode level value ++
      encodeFields level fields

end

/-- `json.dumps(v, indent=indent)` -/
def dumps (v : Json F) : List Char := encode J indent 0 v

end Writing

/-! ## Reading -/

/-- `WHITESPACE` -/
def isSpace (c : Char) : Bool := c ∈ [' ', '\t', '\n', '\r']

def skipSpace (text : List Char) : List Char := text.dropWhile isSpace

/-- The words that are values. -/
def literals : List (List Char × Json F) :=
  [(['n', 'u', 'l', 'l'], .null), (['t', 'r', 'u', 'e'], .bool true),
    (['f', 'a', 'l', 's', 'e'], .bool false), (['N', 'a', 'N'], .float J.nan),
    (['I', 'n', 'f', 'i', 'n', 'i', 't', 'y'], .float J.infinity),
    (['-', 'I', 'n', 'f', 'i', 'n', 'i', 't', 'y'], .float J.negInfinity)]

def scanLiteral (text : List Char) : Option (Json F × List Char) :=
  (literals J).findSome? fun (word, v) => (text.dropPrefix? word).map fun rest => (v, rest)

/-- What follows an item: whether another one does, after a comma, and the text from there on. -/
def scanNext (close : Char) (text : List Char) : Option (Bool × List Char) :=
  match skipSpace text with
  | [] => none
  | c :: rest =>
    if c = close then some (false, rest) else if c = ',' then some (true, skipSpace rest) else none

/-- A key with its colon. -/
def scanKey (text : List Char) : Option (List ℕ × List Char) :=
  match text with
  | [] => none
  | c :: rest => do
    if c ≠ '"' then none
    let (key, rest) ← scanString rest
    match skipSpace rest with
    | [] => none
    | c :: rest => if c = ':' then return (key, skipSpace rest) else none

/-- The dictionary of these items. -/
def ofPairs (fields : List (List ℕ × Json F)) : List (List ℕ × Json F) :=
  (fields.foldl (fun d field => d.set field.1 field.2) OrderedDict.empty).entries

mutual

/-- `scan_once`: the value at the start of a text, and what follows it. The fuel is the depth of the
recursion, of which a text takes no more than one for each character. -/
def scanValue : ℕ → List Char → Option (Json F × List Char)
  | 0, _ => none
  | fuel + 1, text =>
    match text with
    | [] => none
    | c :: rest =>
      if c = '"' then (scanString rest).map fun (s, rest) => (.str s, rest)
      else if c = '[' then
        let inside := skipSpace rest
        if inside.head? = some ']' then some (.arr [], inside.tail)
        else (scanItems fuel inside).map fun (items, rest) => (.arr items, rest)
      else if c = '\x7b' then
        let inside := skipSpace rest
        if inside.head? = some '\x7d' then some (.obj [], inside.tail)
        else (scanFields fuel inside).map fun (fields, rest) => (.obj (ofPairs fields), rest)
      else (scanLiteral J (c :: rest)).or
        ((scanNumber (c :: rest)).map fun (n, rest) => (n.value J, rest))

/-- The items of an array, from the first one to the closing bracket. -/
def scanItems : ℕ → List Char → Option (List (Json F) × List Char)
  | 0, _ => none
  | fuel + 1, text => do
    let (item, rest) ← scanValue fuel text
    let (more, rest) ← scanNext ']' rest
    if more then
      let (items, rest) ← scanItems fuel rest
      return (item :: items, rest)
    else return ([item], rest)

/-- The items of an object, from the first one to the closing brace. -/
def scanFields : ℕ → List Char → Option (List (List ℕ × Json F) × List Char)
  | 0, _ => none
  | fuel + 1, text => do
    let (key, rest) ← scanKey text
    let (value, rest) ← scanValue fuel rest
    let (more, rest) ← scanNext '\x7d' rest
    if more then
      let (fields, rest) ← scanFields fuel rest
      return ((key, value) :: fields, rest)
    else return ([(key, value)], rest)

end

/-- `json.loads(text)`; `none` is `JSONDecodeError`. -/
def loads (text : List Char) : Option (Json F) := do
  let (v, rest) ← scanValue J (text.length + 1) (skipSpace text)
  if skipSpace rest = [] then return v else none

end Json

end Chatbit.Lib
